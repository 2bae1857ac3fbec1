import SThread.Examples.BoundedBufferMoves
import SThread.Sync.HandOffRuns

namespace SThread.Examples.BoundedBuffer

open SThread.Library
open SThread.Sync
open SThread.Sync.HandOff (Party credit start_wait start_post)

/-!
# Rounds that nobody disturbs

While the other tasks stay outside the semaphores and the mutex, a task whose
semaphore holds a token goes through a whole round of its loop.
-/

section

variable
    {Thread : Type}
    [DecidableEq Thread]
    {program : Program Thread}
    {state : State Thread}

/-- The task takes a token that is there. -/
theorem reachable_take
    (reachable : (system program).Reachable state)
    (thread : Thread)
    (here : state.place thread = .loop)
    (more : state.rounds thread < program.items thread)
    (initialized : (state.own program thread).sem.initialized = true)
    (available : (state.own program thread).sem.count ≠ 0) :
    (system program).Reachable
      ((state.setSem (program.role thread)
        ((state.own program thread).ret thread
          (state.own program thread).sem.take
            .wait .success none)).setPlace thread .locking) := by
  have waits :=
    reachable.step
      (.act (.callWait thread .waitEnter here more
        (start_wait initialized)))
  have takes :=
    waits.step
      (.act (.returns (program.role thread) thread _
        (.waitTakes (state.own program thread).sem.take
          (by simp [State.setSem, State.setPlace, Sync.State.setPc,
            Pc.atWaitTest])
          (by simpa [State.setSem, State.setPlace, Sync.State.setPc,
            semWaitTest, State.own] using available))
        (by simp [Sync.State.ret])))
  simpa [State.goOn, State.setSem, State.setPlace, Sync.State.setPc,
    Sync.State.ret, State.own] using takes

/-- A producer writes its next item inside the mutex. -/
theorem reachable_produce
    (reachable : (system program).Reachable state)
    (thread : Thread)
    (producer : program.role thread = .producer)
    (here : state.place thread = .locking)
    (free : state.lock = none) :
    (system program).Reachable
      { state.setPlace thread .post with
        ring :=
          state.ring.write program.slots.toNat
            (state.rounds thread + 1)
        produced :=
          state.produced ++ [(thread, state.rounds thread + 1)] } := by
  have locks := reachable.step (.act (.lock thread here free))
  have stores :=
    locks.step
      (.act (.store thread producer (Function.update_self _ _ _)))
  have pushes :=
    stores.step
      (.act (.push thread producer (Function.update_self _ _ _)))
  have unlocks :=
    pushes.step (.act (.unlock thread (Function.update_self _ _ _)))
  simpa [State.setPlace, RingBuffer.write, RingBuffer.push,
    RingBuffer.store, ← free] using unlocks

/-- A consumer reads the next item inside the mutex. -/
theorem reachable_consume
    (reachable : (system program).Reachable state)
    (thread : Thread)
    (consumer : program.role thread = .consumer)
    (here : state.place thread = .locking)
    (free : state.lock = none) :
    (system program).Reachable
      { state.setPlace thread .post with
        ring := state.ring.advance program.slots.toNat
        item := Function.update state.item thread state.ring.next
        consumed := state.consumed ++ [(thread, state.ring.next)] } := by
  have locks := reachable.step (.act (.lock thread here free))
  have loads :=
    locks.step
      (.act (.load thread consumer (Function.update_self _ _ _)))
  have advances :=
    loads.step
      (.act (.advance thread consumer (Function.update_self _ _ _)))
  have unlocks :=
    advances.step (.act (.unlock thread (Function.update_self _ _ _)))
  simpa [State.setPlace, ← free] using unlocks

/-- The task puts its token into the other semaphore, where nobody sleeps. -/
theorem reachable_put
    (reachable : (system program).Reachable state)
    (thread : Thread)
    (here : state.place thread = .post)
    (initialized : (state.other program thread).sem.initialized = true)
    (idle : (state.other program thread).pc = fun _ => .idle) :
    (system program).Reachable
      ((state.setSem (program.role thread).other
        ((state.other program thread).ret thread
          (syncSemPost (state.other program thread).sem)
            .post .success none)).leave program thread) := by
  unfold State.other at initialized idle
  have calls :=
    reachable.step
      (.act (.callPost thread .postEnter here
        (start_post initialized)))
  have posts :=
    calls.step
      (.act (.returns (program.role thread).other thread _
        (.post ∅
          (by simp [State.setSem, State.setPlace, Sync.State.setPc])
          (CondVar.signals_empty
            (by
              simp [State.setSem, State.setPlace, Sync.State.setPc,
                idle, semCond, Pc.asleep])))
        (by simp [Sync.State.setPc])))
  cases role : program.role thread <;>
    simpa [State.goOn, State.leave, State.finish, State.setSem,
      State.setPlace, Sync.State.setPc, Sync.State.ret, State.other,
      role] using posts

/-- A whole round of a producer. -/
theorem reachable_producerRound
    (reachable : (system program).Reachable state)
    (thread : Thread)
    (producer : program.role thread = .producer)
    (here : state.place thread = .loop)
    (free : state.lock = none)
    (more : state.rounds thread < program.items thread)
    (initialized : ∀ owner, (state.sems owner).sem.initialized = true)
    (available : (state.sems .producer).sem.count ≠ 0)
    (idle : (state.sems .consumer).pc = fun _ => .idle) :
    (system program).Reachable
      { state with
        sems := fun
          | .producer =>
              (state.sems .producer).ret thread
                (state.sems .producer).sem.take .wait .success none
          | .consumer =>
              (state.sems .consumer).ret thread
                (syncSemPost (state.sems .consumer).sem)
                .post .success none
        rounds :=
          Function.update state.rounds thread (state.rounds thread + 1)
        ring :=
          state.ring.write program.slots.toNat
            (state.rounds thread + 1)
        produced :=
          state.produced ++ [(thread, state.rounds thread + 1)] } := by
  have takes :=
    reachable_take reachable thread here more (initialized _)
      (by rwa [State.own, producer])
  have produces :=
    reachable_produce takes thread producer
      (Function.update_self _ _ _) free
  have puts :=
    reachable_put produces thread (Function.update_self _ _ _)
      (by
        simpa [State.setSem, State.setPlace, State.other] using
          initialized (program.role thread).other)
      (by
        simpa [State.setSem, State.setPlace, State.other, producer,
          Party.other] using idle)
  simp only [State.leave, producer, Party.other, State.finish,
    State.setPlace, State.setSem, State.own, State.other,
    Function.update_idem, ← here, Function.update_eq_self] at puts
  convert puts using 3 with owner
  cases owner <;> simp

/-- A whole round of a consumer. -/
theorem reachable_consumerRound
    (reachable : (system program).Reachable state)
    (thread : Thread)
    (consumer : program.role thread = .consumer)
    (here : state.place thread = .loop)
    (free : state.lock = none)
    (more : state.rounds thread < program.items thread)
    (initialized : ∀ owner, (state.sems owner).sem.initialized = true)
    (available : (state.sems .consumer).sem.count ≠ 0)
    (idle : (state.sems .producer).pc = fun _ => .idle) :
    (system program).Reachable
      { state with
        sems := fun
          | .producer =>
              (state.sems .producer).ret thread
                (syncSemPost (state.sems .producer).sem)
                .post .success none
          | .consumer =>
              (state.sems .consumer).ret thread
                (state.sems .consumer).sem.take .wait .success none
        rounds :=
          Function.update state.rounds thread (state.rounds thread + 1)
        ring := state.ring.advance program.slots.toNat
        item := Function.update state.item thread state.ring.next
        sum :=
          Function.update state.sum thread
            (state.sum thread + CInt.ofInt .int state.ring.next)
        consumed := state.consumed ++ [(thread, state.ring.next)] } := by
  have takes :=
    reachable_take reachable thread here more (initialized _)
      (by rwa [State.own, consumer])
  have consumes :=
    reachable_consume takes thread consumer
      (Function.update_self _ _ _) free
  have puts :=
    reachable_put consumes thread (Function.update_self _ _ _)
      (by
        simpa [State.setSem, State.setPlace, State.other] using
          initialized (program.role thread).other)
      (by
        simpa [State.setSem, State.setPlace, State.other, consumer,
          Party.other] using idle)
  simp only [State.leave, consumer] at puts
  have adds :=
    puts.step (.act (.add thread (Function.update_self _ _ _)))
  simp only [Party.other, State.finish, State.setPlace, State.setSem,
    State.own, State.other, consumer, Function.update_idem, ← here,
    Function.update_self, Function.update_eq_self] at adds
  convert adds using 3 with owner
  cases owner <;> simp

end

/-- Both tasks of the example are between rounds, and have finished as many. -/
structure AfterRounds
    (rounds : Nat)
    (state : State Bool) : Prop where
  sems :
    ∀ owner,
      (state.sems owner).sem =
        syncSemInit (credit exampleSemaphore.slots owner)
  idle : ∀ owner, (state.sems owner).pc = fun _ => .idle
  place : state.place = fun _ => .loop
  free : state.lock = none
  rounds : state.rounds = fun _ => rounds

/-- Producer and consumer go through one more round, one after the other. -/
theorem AfterRounds.next
    {rounds : Nat}
    {state : State Bool}
    (after : AfterRounds rounds state)
    (reachable : (system exampleSemaphore).Reachable state)
    (more : rounds < 20) :
    ∃ later,
      (system exampleSemaphore).Reachable later ∧
        AfterRounds (rounds + 1) later := by
  obtain ⟨sems, idle, place, free, finished⟩ := after
  have produces :=
    reachable_producerRound reachable false rfl (by rw [place]) free
      (by rw [finished]; exact more)
      (by intro owner; rw [sems]; rfl)
      (by rw [sems]; decide)
      (idle .consumer)
  have consumes :=
    reachable_consumerRound produces true rfl (by rw [place]) free
      (by simpa [finished, exampleSemaphore] using more)
      (by
        rintro ⟨⟩ <;>
          simp [Sync.State.ret, SyncSem.take, syncSemPost, sems,
            syncSemInit])
      (by simp [Sync.State.ret, syncSemPost, sems, syncSemInit, credit])
      (by simp [Sync.State.ret, idle])
  refine ⟨_, consumes, ?_, ?_, place, free, ?_⟩
  · rintro ⟨⟩
    · simp [sems, Sync.State.ret, HandOff.syncSemPost_take]
    · simp [sems, Sync.State.ret, credit, HandOff.take_syncSemPost]
  · rintro ⟨⟩ <;> simp [idle, Sync.State.ret]
  · funext thread
    cases thread <;> simp [finished]

/-- The example can come to its end. -/
theorem exampleSemaphore_afterRounds
    {rounds : Nat}
    (enough : rounds ≤ 20) :
    ∃ state,
      (system exampleSemaphore).Reachable state ∧
        AfterRounds rounds state := by
  induction rounds with
  | zero =>
      exact ⟨_, .start rfl, fun _ => rfl, fun _ => rfl, rfl, rfl, rfl⟩
  | succ rounds inductionHypothesis =>
      obtain ⟨state, reachable, after⟩ :=
        inductionHypothesis (Nat.le_of_succ_le enough)
      exact after.next reachable enough

end SThread.Examples.BoundedBuffer
