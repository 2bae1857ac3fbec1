import SThread.Scheduler.Fifo

namespace SThread.Scheduler

open SThread.Library

/-!
# No lost wake-up

Every push sends one signal on `not_empty` and every removal from a bounded
queue one on `not_full`.  The invariant counts: whenever somebody sleeps, there
are at least as many notified threads on their way back to the lock as there
are tasks, respectively free slots.

A thread that woke up spuriously is not counted as notified.
-/

/-- The thread waits in `task_queue_push` for room. -/
def Pc.waitsForRoom
    {Func Arg : Type} :
    Pc Func Arg → Bool
  | .pushWait _ _ _ _ => true
  | _ => false

/-- No call starts by waiting. -/
theorem Request.start_not_waiting
    {Func Arg : Type}
    (request : Request Func Arg) :
    request.start.waitsForRoom = false := by
  cases request with
  | push func arg priority =>
      cases func <;> rfl
  | pop kind outputs =>
      cases outputs <;> rfl
  | shutdown =>
      rfl

section

variable
    {Thread Func Arg : Type}
    [DecidableEq Thread]
    [Fintype Thread]
    {capacity : Nat}
    {state later : State Thread Func Arg}
    {thread : Thread}

/-- The counting invariant of the two condition variables. -/
structure WakeInvariant
    (capacity : Nat)
    (state : State Thread Func Arg) : Prop where
  notEmpty :
    (notEmpty Func Arg).Covered state.queue.count state.pc
  notFull :
    (notFull Func Arg).Covered (capacity - state.queue.count) state.pc
  bounded :
    ∀ thread, (state.pc thread).waitsForRoom = true → 0 < capacity

/-- What holds when some thread sleeps in the queue. -/
structure NoLostWakeup
    (capacity : Nat)
    (state : State Thread Func Arg) : Prop where
  consumers :
    (∃ thread, (state.pc thread).asleepNotEmpty = true) →
      state.queue.shutdown = false ∧
        state.queue.count ≤
          population Pc.notifiedNotEmpty state.pc
  producers :
    (∃ thread, (state.pc thread).asleepNotFull = true) →
      state.queue.shutdown = false ∧
        0 < capacity ∧
        capacity - state.queue.count ≤
          population Pc.notifiedNotFull state.pc
  tasksServed :
    (∃ thread, (state.pc thread).asleepNotEmpty = true) →
      0 < state.queue.count →
      ∃ other, (state.pc other).notifiedNotEmpty = true
  slotsServed :
    (∃ thread, (state.pc thread).asleepNotFull = true) →
      state.queue.count < capacity →
      ∃ other, (state.pc other).notifiedNotFull = true

/-- Every step of a thread keeps the sleepers on `not_empty` covered. -/
theorem Step.covers_notEmpty
    (step : Step state thread later)
    (opened : later.queue.shutdown = false)
    (noFault : later.pc thread ≠ .fault)
    (covered :
      (notEmpty Func Arg).Covered state.queue.count state.pc) :
    (notEmpty Func Arg).Covered later.queue.count later.pc := by
  cases step with
  | alloc func arg priority node submitTime here fresh
  | allocFailed func arg priority here
  | pushFreed node record here stored
  | pushFreeFault node here missing
  | popTaken kind node removal record here stored
  | popTakeFault kind node removal here missing =>
      exact covered.update_unnotified thread rfl (by rw [here]; rfl)
  | pushRefused func arg node locked
  | pushSleeps func arg node locked
  | pushFault func arg node locked =>
      exact covered.update_unnotified thread rfl locked.notified
  | pushLinked func arg node heap queue targets locked signals =>
      have counts := (linkNode_settings locked.justified.2.2).2.2
      have moved :
          (notEmpty Func Arg).Covered state.queue.count
            (Function.update state.pc thread (.pushDone 0)) :=
        covered.update_unnotified thread rfl locked.notified
      simpa [counts] using moved.signal signals
  | popEmpty kind locked =>
      simpa [locked.justified.1] using
        CondVar.Covered.of_nothing (notEmpty Func Arg) _
  | popSleeps kind locked =>
      simpa [locked.justified.2.1] using
        CondVar.Covered.of_nothing (notEmpty Func Arg) _
  | popUnlinked kind node record queue targets locked stored signals =>
      obtain ⟨nonempty, unlinks⟩ := locked.justified
      have counts := (unlinkHead_settings unlinks).2.2
      -- a notified consumer spends its notification on the task it takes
      have moved :
          (notEmpty Func Arg).Covered queue.count
            (Function.update state.pc thread
              (.popTake kind node
                ⟨state.removed.length, record.func, record.arg⟩)) := by
        refine covered.update thread rfl ?_
        have single :
            ((notEmpty Func Arg).notified (state.pc thread)).toNat ≤ 1 :=
          Bool.toNat_le _
        rw [counts]
        omega
      by_cases bounded : state.queue.capacity > 0
      · rw [if_pos bounded] at signals
        exact moved.congr
          (CondVar.notify_stable signals _
            (wakeNotFull_stable _ (fun _ _ _ => rfl)))
          (CondVar.notify_stable signals _
            (wakeNotFull_stable _ (fun _ _ _ => rfl)))
      · rw [if_neg bounded] at signals
        subst signals
        simpa using moved
  | popFault kind locked =>
      exact (noFault (Function.update_self _ _ _)).elim
  | shutdown here =>
      exact Bool.noConfusion opened

/-- Every step of a thread keeps the sleepers on `not_full` covered. -/
theorem Step.covers_notFull
    (step : Step state thread later)
    (opened : later.queue.shutdown = false)
    (noFault : later.pc thread ≠ .fault)
    (capacityIs : state.queue.capacity = capacity)
    (fits : 0 < capacity → state.queue.count ≤ capacity)
    (covered :
      (notFull Func Arg).Covered
        (capacity - state.queue.count) state.pc) :
    (notFull Func Arg).Covered
      (capacity - later.queue.count) later.pc := by
  cases step with
  | alloc func arg priority node submitTime here fresh
  | allocFailed func arg priority here
  | pushFreed node record here stored
  | pushFreeFault node here missing
  | popTaken kind node removal record here stored
  | popTakeFault kind node removal here missing =>
      exact covered.update_unnotified thread rfl (by rw [here]; rfl)
  | pushRefused func arg node locked =>
      have closed : state.queue.shutdown = true := locked.justified
      have opened : state.queue.shutdown = false := opened
      rw [closed] at opened
      exact Bool.noConfusion opened
  | pushSleeps func arg node locked =>
      have full : capacity - state.queue.count = 0 := by
        rw [← capacityIs]
        exact Nat.sub_eq_zero_of_le locked.justified.2.2
      simpa [full] using
        CondVar.Covered.of_nothing (notFull Func Arg) _
  | pushLinked func arg node heap queue targets locked signals =>
      obtain ⟨_, room, links⟩ := locked.justified
      have counts := (linkNode_settings links).2.2
      -- a notified producer spends its notification on the slot it fills
      have moved :
          (notFull Func Arg).Covered (capacity - queue.count)
            (Function.update state.pc thread (.pushDone 0)) := by
        rcases room with unbounded | notFull
        · have nothing : capacity - queue.count = 0 := by
            omega
          rw [nothing]
          exact CondVar.Covered.of_nothing _ _
        · refine covered.update thread rfl ?_
          have single :
              ((Scheduler.notFull Func Arg).notified
                (state.pc thread)).toNat ≤ 1 :=
            Bool.toNat_le _
          rw [counts]
          omega
      exact moved.congr
        (CondVar.notify_stable signals _
          (wakeNotEmpty_stable _ rfl))
        (CondVar.notify_stable signals _
          (wakeNotEmpty_stable _ rfl))
  | popEmpty kind locked
  | popSleeps kind locked =>
      exact covered.update_unnotified thread rfl locked.notified
  | popUnlinked kind node record queue targets locked stored signals =>
      obtain ⟨nonempty, unlinks⟩ := locked.justified
      have counts := (unlinkHead_settings unlinks).2.2
      have moved :
          (notFull Func Arg).Covered (capacity - state.queue.count)
            (Function.update state.pc thread
              (.popTake kind node
                ⟨state.removed.length, record.func, record.arg⟩)) :=
        covered.update_unnotified thread rfl locked.notified
      by_cases bounded : state.queue.capacity > 0
      · rw [if_pos bounded] at signals
        have freed :
            capacity - queue.count =
              capacity - state.queue.count + 1 := by
          have fits := fits (by omega)
          omega
        rw [freed]
        exact moved.signal signals
      · have nothing : capacity - queue.count = 0 := by
          omega
        simpa [nothing] using
          CondVar.Covered.of_nothing (notFull Func Arg) _
  | pushFault func arg node locked
  | popFault kind locked =>
      exact (noFault (Function.update_self _ _ _)).elim
  | shutdown here =>
      exact Bool.noConfusion opened

omit [Fintype Thread] in
/-- A push waits for room in a bounded queue only. -/
theorem Step.waits_bounded
    {channel : Channel (Func × Arg)}
    {nodes : List Addr}
    (step : Step state thread later)
    (refines : Refines state channel nodes)
    (bounded :
      ∀ other,
        (state.pc other).waitsForRoom = true →
        0 < state.queue.capacity)
    (other : Thread)
    (waits : (later.pc other).waitsForRoom = true) :
    0 < state.queue.capacity := by
  by_cases actor : other = thread
  · subst actor
    obtain ⟨_, _, _, _, effect⟩ := step.effect refines
    generalize state.pc other = before at effect
    generalize later.pc other = after at effect waits
    cases effect with
    | pushSleeps before func arg node pushes opened positive =>
        exact positive
    | _ =>
        simp [Pc.waitsForRoom] at waits
  · have stable :
        WakeStable (fun pc : Pc Func Arg => pc.waitsForRoom) :=
      ⟨rfl, fun _ _ _ => rfl⟩
    rw [step.observe_other stable actor] at waits
    exact bounded other waits

/-- A thread that was not notified and does not go to sleep keeps the invariant. -/
theorem WakeInvariant.move
    (invariant : WakeInvariant capacity state)
    (thread : Thread)
    {pc : Pc Func Arg}
    (awake : Awake pc)
    (unnotified :
      (state.pc thread).notifiedNotEmpty = false ∧
        (state.pc thread).notifiedNotFull = false)
    (waits : pc.waitsForRoom = true → 0 < capacity) :
    WakeInvariant capacity (state.setPc thread pc) where
  notEmpty :=
    invariant.notEmpty.update_unnotified thread awake.1 unnotified.1
  notFull :=
    invariant.notFull.update_unnotified thread awake.2 unnotified.2
  bounded := by
    rw [State.setPc_pc, Function.forall_update_iff state.pc
      (fun _ here => here.waitsForRoom = true → 0 < capacity)]
    exact ⟨waits, fun other _ => invariant.bounded other⟩

/-- Every step of the system keeps the counting invariant. -/
theorem Next.wakeInvariant
    (next : Next state later)
    (reachable : (system Thread Func Arg capacity).Reachable state)
    (invariant : WakeInvariant capacity state) :
    WakeInvariant capacity later := by
  cases next with
  | call thread request here =>
      obtain ⟨_, awake, _⟩ :=
        request.start_spec state.heap state.queue state.linked
      refine invariant.move thread awake (by rw [here]; exact ⟨rfl, rfl⟩) ?_
      intro waits
      rw [request.start_not_waiting] at waits
      exact Bool.noConfusion waits
  | @step thread _ step =>
      obtain ⟨channel, nodes, _, refines⟩ := reachable_refines reachable
      obtain ⟨_, _, _, refinesLater⟩ := step.refines refines
      have capacityIs := reachable_capacity reachable
      have fits := reachable_bounded reachable
      have noFault : later.pc thread ≠ .fault := by
        intro fault
        have supported := refinesLater.supported thread
        rw [fault] at supported
        exact supported
      have bounded :
          ∀ other,
            (later.pc other).waitsForRoom = true → 0 < capacity := by
        subst capacityIs
        exact step.waits_bounded refines invariant.bounded
      cases closed : later.queue.shutdown with
      | true =>
          have awake := refinesLater.awake closed
          exact ⟨.of_awake _ (fun other => (awake other).1),
            .of_awake _ (fun other => (awake other).2), bounded⟩
      | false =>
          exact ⟨step.covers_notEmpty closed noFault invariant.notEmpty,
            step.covers_notFull closed noFault capacityIs fits
              invariant.notFull,
            bounded⟩
  | @spurious thread pc wakes =>
      rcases Pc.spurious_cases wakes with
        ⟨func, arg, node, shape, rfl⟩ | ⟨shape, rfl⟩
      · refine invariant.move thread ⟨rfl, rfl⟩
          (by rw [shape]; exact ⟨rfl, rfl⟩) ?_
        exact fun _ => invariant.bounded thread (by rw [shape]; rfl)
      · exact invariant.move thread ⟨rfl, rfl⟩
          (by rw [shape]; exact ⟨rfl, rfl⟩) nofun
  | ret thread returned =>
      refine invariant.move thread ⟨rfl, rfl⟩ ?_ nofun
      cases shape : state.pc thread with
      | pushWait func arg node wake
      | popWait wake =>
          rw [shape] at returned
          exact Bool.noConfusion returned
      | _ =>
          exact ⟨rfl, rfl⟩

/-- The counting invariant holds in every reachable state. -/
theorem reachable_wakeInvariant
    (reachable : (system Thread Func Arg capacity).Reachable state) :
    WakeInvariant capacity state := by
  refine System.Reachable.invariant (WakeInvariant capacity)
    ?_ ?_ reachable
  · rintro first rfl
    exact ⟨.of_nothing _ _, .of_awake _ (fun _ => rfl), nofun⟩
  · intro before after beforeReachable invariant next
    exact Next.wakeInvariant next beforeReachable invariant

/-- No reachable state has lost a wake-up. -/
theorem reachable_noLostWakeup
    (reachable : (system Thread Func Arg capacity).Reachable state) :
    NoLostWakeup capacity state := by
  have invariant := reachable_wakeInvariant reachable
  obtain ⟨channel, nodes, _, refines⟩ := reachable_refines reachable
  have opened :
      ∀ thread,
        (state.pc thread).asleepNotEmpty = true ∨
          (state.pc thread).asleepNotFull = true →
        state.queue.shutdown = false := by
    intro thread asleep
    cases closed : state.queue.shutdown with
    | false =>
        rfl
    | true =>
        have awake := refines.awake closed thread
        simp [awake.1, awake.2] at asleep
  refine ⟨?_, ?_, ?_, ?_⟩
  · rintro ⟨thread, asleep⟩
    refine ⟨opened thread (Or.inl asleep), ?_⟩
    exact invariant.notEmpty (population_pos.mpr ⟨thread, asleep⟩)
  · rintro ⟨thread, asleep⟩
    refine ⟨opened thread (Or.inr asleep), ?_, ?_⟩
    · apply invariant.bounded thread
      obtain ⟨func, arg, node, shape⟩ := Pc.asleepNotFull_iff.mp asleep
      rw [shape]
      rfl
    · exact invariant.notFull (population_pos.mpr ⟨thread, asleep⟩)
  · intro someone queued
    have enough := invariant.notEmpty (population_pos.mpr someone)
    exact population_pos.mp (queued.trans_le enough)
  · intro someone free
    have enough := invariant.notFull (population_pos.mpr someone)
    exact population_pos.mp ((Nat.sub_pos_of_lt free).trans_le enough)

end

/-- Two consumers sleep, a push notifies one of them, and the other sleeps on. -/
theorem reachable_noLostWakeup_sleeper :
    ∃ state : State (Fin 3) Nat Nat,
      (system (Fin 3) Nat Nat 1).Reachable state ∧
        (state.pc 1).asleepNotEmpty = true ∧
        state.queue.count = 1 ∧
        NoLostWakeup 1 state := by
  have start : (system (Fin 3) Nat Nat 1).Reachable _ :=
    .start rfl
  have first := (start.step (.call 0 (.pop .pop true) rfl)).step
    (.step 0 (.popSleeps .pop (.enter rfl)))
  have second := (first.step (.call 1 (.pop .pop true) rfl)).step
    (.step 1 (.popSleeps .pop (.enter rfl)))
  have called := second.step
    (.call 2 (.push (some 7) 8 .normal) rfl)
  have allocated := called.step
    (.step 2 (.alloc 7 8 .normal 0 0 rfl rfl))
  have linked := allocated.step
    (.step 2 (.pushLinked 7 8 0 _ _ {0} (.enter rfl) ⟨?_, ?_⟩))
  · exact ⟨_, linked, rfl, rfl, reachable_noLostWakeup linked⟩
  · decide
  · decide

end SThread.Scheduler
