import SThread.Sync.Semaphore

namespace SThread.Sync

open SThread.Library

/-!
# No lost wake-up in the semaphore

Every post sends one signal on `sem->cond`.  Whenever somebody sleeps in
`sync_sem_wait`, at least as many threads as there are tokens have been
notified and are on their way back to the lock.  A post that wraps the counter
leaves no token, so the count holds across it as well.
-/

/-- Taking a token lowers the counter by one. -/
theorem SyncSem.take_toNat
    {sem : SyncSem}
    (available : sem.count ≠ 0) :
    sem.take.count.toNat + 1 = sem.count.toNat := by
  have positive : sem.count.toNat ≠ 0 := by
    intro zero
    exact available (UInt32.toNat_inj.mp zero)
  have small := sem.count.toNat_lt
  simp only [SyncSem.take, UInt32.toNat_sub, UInt32.toNat_one]
  omega

/-- A post raises the counter by one, modulo `2 ^ 32`. -/
theorem syncSemPost_toNat
    (sem : SyncSem) :
    (syncSemPost sem).count.toNat = (sem.count.toNat + 1) % 2 ^ 32 := by
  simp [syncSemPost]

/-- What a wait that goes on has found. -/
theorem semWaitTest_some
    {sem after : SyncSem}
    (takes : semWaitTest sem = some after) :
    sem.count ≠ 0 ∧ after = sem.take := by
  unfold semWaitTest at takes
  split at takes
  · contradiction
  · exact ⟨by assumption, (Option.some.inj takes).symm⟩

/-- A wait sleeps on an empty semaphore. -/
theorem semWaitTest_none
    {sem : SyncSem}
    (empty : semWaitTest sem = none) :
    sem.count = 0 := by
  unfold semWaitTest at empty
  split at empty
  · assumption
  · contradiction

/-- The two ways a `sync_sem_trywait` ends. -/
theorem syncSemTrywait_cases
    {sem after : SyncSem}
    {result : Api.SthreadError}
    (ends : syncSemTrywait sem = (result, after)) :
    (sem.count = 0 ∧ result = .busy ∧ after = sem) ∨
      (sem.count ≠ 0 ∧ result = .success ∧ after = sem.take) := by
  unfold syncSemTrywait at ends
  split at ends
  · obtain ⟨rfl, rfl⟩ := Prod.mk.inj ends
    exact Or.inl ⟨by assumption, rfl, rfl⟩
  · obtain ⟨rfl, rfl⟩ := Prod.mk.inj ends
    exact Or.inr ⟨by assumption, rfl, rfl⟩

/-- A call starts awake. -/
theorem Request.start_awake
    {sem : SyncSem}
    {request : Request}
    {pc : Pc}
    (starts : request.start sem = some pc) :
    pc.asleep = false := by
  cases request <;>
    simp only [Request.start, Option.ite_none_right_eq_some,
      Option.some.injEq] at starts <;>
    obtain ⟨_, rfl⟩ := starts <;>
    rfl

section

variable
    {Thread : Type}
    [DecidableEq Thread]
    [Fintype Thread]
    {state later : State Thread}
    {thread : Thread}

/-- Every step of a thread keeps the sleepers covered. -/
theorem Step.covers
    (step : Step state thread later)
    (covered : semCond.Covered state.sem.count.toNat state.pc) :
    semCond.Covered later.sem.count.toNat later.pc := by
  have outside : semCond.notified .idle = false := rfl
  cases step with
  | waitSleeps here empty =>
      have nothing := semWaitTest_none empty
      simpa [State.setPc, nothing] using
        CondVar.Covered.of_nothing semCond _
  | waitTakes sem here takes =>
      obtain ⟨available, rfl⟩ := semWaitTest_some takes
      have fewer := SyncSem.take_toNat available
      -- a notified waiter spends its notification on the token it takes
      refine covered.update thread rfl ?_
      have single : (semCond.notified (state.pc thread)).toNat ≤ 1 :=
        Bool.toNat_le _
      simp only [State.ret_sem, outside, Bool.toNat_false]
      omega
  | trywait result sem here ends =>
      have unnotified : semCond.notified (state.pc thread) = false := by
        rw [here]
        rfl
      rcases syncSemTrywait_cases ends with
        ⟨_, _, rfl⟩ | ⟨available, _, rfl⟩
      · exact covered.update_unnotified thread rfl unnotified
      · have fewer := SyncSem.take_toNat available
        refine covered.update thread rfl ?_
        simp only [State.ret_sem, outside, unnotified, Bool.toNat_false]
        omega
  | post targets here signals =>
      have moved :
          semCond.Covered state.sem.count.toNat
            (Function.update state.pc thread .idle) :=
        covered.update_unnotified thread rfl (by rw [here]; rfl)
      intro someone
      have enough := moved.signal signals someone
      have wraps := syncSemPost_toNat state.sem
      simp only [State.ret]
      omega
  | getvalue here =>
      exact covered.update_unnotified thread rfl (by rw [here]; rfl)

/-- What holds when some thread sleeps in `sync_sem_wait`. -/
structure SemNoLostWakeup
    (state : State Thread) : Prop where
  covered :
    (∃ thread, (state.pc thread).asleep = true) →
      state.sem.count.toNat ≤ population Pc.notified state.pc
  served :
    (∃ thread, (state.pc thread).asleep = true) →
      state.sem.count ≠ 0 →
      ∃ other, (state.pc other).notified = true

/-- The sleepers are covered in every reachable state. -/
theorem reachable_covered
    {value : UInt32}
    {allowed : State Thread → Thread → Request → Prop}
    (reachable : (system value allowed).Reachable state) :
    semCond.Covered state.sem.count.toNat state.pc := by
  refine System.Reachable.invariant
    (fun state => semCond.Covered state.sem.count.toNat state.pc)
    ?_ ?_ reachable
  · intro first initial
    subst initial
    exact .of_awake _ (fun _ => rfl)
  · intro before after _ covered next
    cases next with
    | call thread request pc here may starts =>
        exact covered.update_unnotified thread
          (Request.start_awake starts) (by rw [here]; rfl)
    | invalid thread request here may fails =>
        exact covered.update_unnotified thread rfl (by rw [here]; rfl)
    | step thread step =>
        exact step.covers covered
    | spurious thread here =>
        exact covered.update_unnotified thread rfl (by rw [here]; rfl)

/-- No thread stays asleep beside a token that nobody is coming for. -/
theorem reachable_semNoLostWakeup
    {value : UInt32}
    {allowed : State Thread → Thread → Request → Prop}
    (reachable : (system value allowed).Reachable state) :
    SemNoLostWakeup state := by
  have covered := reachable_covered reachable
  have enough :
      (∃ thread, (state.pc thread).asleep = true) →
        state.sem.count.toNat ≤ population Pc.notified state.pc := by
    intro someone
    exact covered (population_pos.mpr someone)
  refine ⟨enough, ?_⟩
  intro someone available
  apply population_pos.mp
  apply Nat.lt_of_lt_of_le _ (enough someone)
  apply Nat.pos_of_ne_zero
  intro zero
  exact available (UInt32.toNat_inj.mp zero)

end

/-- Two threads sleep, and a third one posts. -/
theorem reachable_semNoLostWakeup_posted :
    ∃ state : State (Fin 3),
      (system 0 anyCall).Reachable state ∧
        state.pc 0 = .waiting .notified ∧
        state.pc 1 = .waiting .asleep ∧
        state.sem.count = 1 ∧
        SemNoLostWakeup state := by
  have start : (system 0 (@anyCall (Fin 3))).Reachable _ :=
    .start rfl
  have first := start.step (.call 0 .wait _ rfl trivial rfl)
  have firstSleeps := first.step (.step 0 (.waitSleeps rfl rfl))
  have second := firstSleeps.step (.call 1 .wait _ rfl trivial rfl)
  have secondSleeps := second.step (.step 1 (.waitSleeps rfl rfl))
  have third := secondSleeps.step (.call 2 .post _ rfl trivial rfl)
  have posted := third.step
    (.step 2 (.post {0} rfl ⟨by decide, by decide⟩))
  exact ⟨_, posted, rfl, rfl, rfl, reachable_semNoLostWakeup posted⟩

end SThread.Sync
