import SThread.Library.Tally

namespace SThread.Library

/-!
# Condition variables

A thread inside a wait on a condition variable is asleep, has been notified by
a signal or a broadcast, or woke up spuriously; in the last two cases it still
has to reacquire the lock.  A signal notifies at least one sleeper when there
is one, a broadcast notifies all of them.

`Covered` is the counting law behind programs that send one signal for every
unit of a resource instead of broadcasting.
-/

/-- How the wait states of one condition variable appear in local states. -/
structure CondVar (Local : Type*) where
  asleep : Local → Bool
  notified : Local → Bool
  wake : Local → Local
  wake_not_asleep :
    ∀ place, asleep place = true → asleep (wake place) = false
  wake_notified :
    ∀ place, asleep place = true → notified (wake place) = true
  asleep_not_notified :
    ∀ place, asleep place = true → notified place = false

namespace CondVar

/-- Threads that one signal may notify: sleepers, and at least one if any. -/
structure Signals
    {Thread Local : Type*}
    (cond : CondVar Local)
    (locals : Thread → Local)
    (targets : Finset Thread) : Prop where
  sleepers :
    ∀ thread ∈ targets, cond.asleep (locals thread) = true
  someone :
    (∃ thread, cond.asleep (locals thread) = true) →
      targets.Nonempty

/-- Where nobody sleeps, a signal notifies nobody. -/
theorem signals_empty
    {Thread Local : Type*}
    {cond : CondVar Local}
    {locals : Thread → Local}
    (awake : ∀ thread, ¬ cond.asleep (locals thread) = true) :
    cond.Signals locals ∅ where
  sleepers := by
    intro thread member
    simp at member
  someone := by
    rintro ⟨thread, asleep⟩
    exact absurd asleep (awake thread)

/-- A signal can always be sent. -/
theorem exists_signals
    {Thread Local : Type*}
    (cond : CondVar Local)
    (locals : Thread → Local) :
    ∃ targets, cond.Signals locals targets := by
  by_cases sleeps : ∃ thread, cond.asleep (locals thread) = true
  · obtain ⟨thread, asleep⟩ := sleeps
    refine ⟨{thread}, ?_, fun _ => Finset.singleton_nonempty thread⟩
    intro target member
    obtain rfl := Finset.mem_singleton.mp member
    exact asleep
  · exact ⟨∅, signals_empty (not_exists.mp sleeps)⟩

/-- Notify the chosen threads. -/
def notify
    {Thread Local : Type*}
    [DecidableEq Thread]
    (cond : CondVar Local)
    (targets : Finset Thread)
    (locals : Thread → Local) : Thread → Local :=
  fun thread =>
    if thread ∈ targets then
      cond.wake (locals thread)
    else
      locals thread

/-- Notify every sleeper. -/
def broadcast
    {Thread Local : Type*}
    (cond : CondVar Local)
    (locals : Thread → Local) : Thread → Local :=
  fun thread =>
    if cond.asleep (locals thread) = true then
      cond.wake (locals thread)
    else
      locals thread

/-- Notifying nobody changes nothing. -/
@[simp] theorem notify_empty
    {Thread Local : Type*}
    [DecidableEq Thread]
    (cond : CondVar Local)
    (locals : Thread → Local) :
    cond.notify ∅ locals = locals := by
  funext thread
  simp [notify]

/-- What a wake-up does not change is not changed by a signal. -/
theorem notify_stable
    {Thread Local Value : Type*}
    [DecidableEq Thread]
    {cond : CondVar Local}
    {locals : Thread → Local}
    {targets : Finset Thread}
    (signals : cond.Signals locals targets)
    (observe : Local → Value)
    (stable :
      ∀ place,
        cond.asleep place = true →
        observe (cond.wake place) = observe place)
    (thread : Thread) :
    observe (cond.notify targets locals thread) =
      observe (locals thread) := by
  unfold notify
  split
  · exact stable _ (signals.sleepers thread (by assumption))
  · rfl

/-- What a wake-up does not change is not changed by a broadcast. -/
theorem broadcast_stable
    {Thread Local Value : Type*}
    {cond : CondVar Local}
    {locals : Thread → Local}
    (observe : Local → Value)
    (stable :
      ∀ place,
        cond.asleep place = true →
        observe (cond.wake place) = observe place)
    (thread : Thread) :
    observe (cond.broadcast locals thread) =
      observe (locals thread) := by
  unfold broadcast
  split
  · exact stable _ (by assumption)
  · rfl

/-- Threads that are not asleep are left alone by a signal. -/
theorem notify_of_awake
    {Thread Local : Type*}
    [DecidableEq Thread]
    {cond : CondVar Local}
    {locals : Thread → Local}
    {targets : Finset Thread}
    (signals : cond.Signals locals targets)
    {thread : Thread}
    (awake : cond.asleep (locals thread) = false) :
    cond.notify targets locals thread = locals thread := by
  unfold notify
  split
  · have asleep := signals.sleepers thread (by assumption)
    rw [awake] at asleep
    exact Bool.noConfusion asleep
  · rfl

/-- Threads that are not asleep are left alone by a broadcast. -/
theorem broadcast_of_awake
    {Thread Local : Type*}
    {cond : CondVar Local}
    {locals : Thread → Local}
    {thread : Thread}
    (awake : cond.asleep (locals thread) = false) :
    cond.broadcast locals thread = locals thread := by
  simp [broadcast, awake]

/-- A signal puts nobody to sleep. -/
theorem asleep_of_notify
    {Thread Local : Type*}
    [DecidableEq Thread]
    {cond : CondVar Local}
    {locals : Thread → Local}
    {targets : Finset Thread}
    (signals : cond.Signals locals targets)
    {thread : Thread}
    (asleep : cond.asleep (cond.notify targets locals thread) = true) :
    cond.asleep (locals thread) = true := by
  unfold notify at asleep
  split at asleep
  · exact signals.sleepers thread (by assumption)
  · exact asleep

/-- Nobody sleeps after a broadcast. -/
theorem broadcast_awake
    {Thread Local : Type*}
    (cond : CondVar Local)
    (locals : Thread → Local)
    (thread : Thread) :
    cond.asleep (cond.broadcast locals thread) = false := by
  unfold broadcast
  split
  · exact cond.wake_not_asleep _ (by assumption)
  · simpa using ‹¬ cond.asleep (locals thread) = true›

section Counting

variable
    {Thread Local : Type*}
    [Fintype Thread]

/-- A signal moves its targets out of the sleepers. -/
theorem population_asleep_notify
    [DecidableEq Thread]
    {cond : CondVar Local}
    {locals : Thread → Local}
    {targets : Finset Thread}
    (signals : cond.Signals locals targets) :
    population cond.asleep (cond.notify targets locals) +
        targets.card =
      population cond.asleep locals := by
  unfold population
  have split :
      (Finset.univ.filter fun thread =>
          cond.asleep (locals thread) = true) =
        (Finset.univ.filter fun thread =>
          cond.asleep (cond.notify targets locals thread) = true) ∪
          targets := by
    ext thread
    simp only [Finset.mem_filter, Finset.mem_univ, true_and,
      Finset.mem_union]
    by_cases chosen : thread ∈ targets
    · simp [chosen, signals.sleepers thread chosen]
    · simp [notify, chosen]
  have apart :
      Disjoint
        (Finset.univ.filter fun thread =>
          cond.asleep (cond.notify targets locals thread) = true)
        targets := by
    rw [Finset.disjoint_left]
    intro thread member chosen
    have asleep := (Finset.mem_filter.mp member).2
    rw [notify, if_pos chosen,
      cond.wake_not_asleep _ (signals.sleepers thread chosen)] at asleep
    exact Bool.noConfusion asleep
  rw [split, Finset.card_union_of_disjoint apart]

/-- A signal adds its targets to the notified threads. -/
theorem population_notified_notify
    [DecidableEq Thread]
    {cond : CondVar Local}
    {locals : Thread → Local}
    {targets : Finset Thread}
    (signals : cond.Signals locals targets) :
    population cond.notified (cond.notify targets locals) =
      population cond.notified locals + targets.card := by
  unfold population
  have split :
      (Finset.univ.filter fun thread =>
          cond.notified (cond.notify targets locals thread) = true) =
        (Finset.univ.filter fun thread =>
          cond.notified (locals thread) = true) ∪
          targets := by
    ext thread
    simp only [Finset.mem_filter, Finset.mem_univ, true_and,
      Finset.mem_union]
    by_cases chosen : thread ∈ targets
    · simp [notify, chosen,
        cond.wake_notified _ (signals.sleepers thread chosen)]
    · simp [notify, chosen]
  have apart :
      Disjoint
        (Finset.univ.filter fun thread =>
          cond.notified (locals thread) = true)
        targets := by
    rw [Finset.disjoint_left]
    intro thread member chosen
    have notified := (Finset.mem_filter.mp member).2
    rw [cond.asleep_not_notified _
      (signals.sleepers thread chosen)] at notified
    exact Bool.noConfusion notified
  rw [split, Finset.card_union_of_disjoint apart]

/--
Whenever somebody sleeps, at least as many threads as there are available
units have been notified and are on their way back to the lock.
-/
def Covered
    (cond : CondVar Local)
    (available : Nat)
    (locals : Thread → Local) : Prop :=
  0 < population cond.asleep locals →
    available ≤ population cond.notified locals

namespace Covered

/-- With nobody asleep there is nothing to cover. -/
theorem of_awake
    {cond : CondVar Local}
    {locals : Thread → Local}
    (available : Nat)
    (awake :
      ∀ thread, cond.asleep (locals thread) = false) :
    cond.Covered available locals := by
  intro someone
  rw [population_eq_zero.mpr awake] at someone
  exact absurd someone (Nat.lt_irrefl 0)

/-- With nothing available there is nothing to cover. -/
theorem of_nothing
    (cond : CondVar Local)
    (locals : Thread → Local) :
    cond.Covered 0 locals :=
  fun _ => Nat.zero_le _

/-- Only the wait states of this condition variable matter. -/
theorem congr
    {cond : CondVar Local}
    {before after : Thread → Local}
    {available : Nat}
    (covered : cond.Covered available before)
    (asleep :
      ∀ thread,
        cond.asleep (after thread) = cond.asleep (before thread))
    (notified :
      ∀ thread,
        cond.notified (after thread) = cond.notified (before thread)) :
    cond.Covered available after := by
  intro someone
  rw [population_congr asleep] at someone
  rw [population_congr notified]
  exact covered someone

/--
One thread moves without going to sleep.  It may use up its own notification
only together with a unit.
-/
theorem move
    {cond : CondVar Local}
    {before after : Thread → Local}
    {available left : Nat}
    (covered : cond.Covered available before)
    (actor : Thread)
    (others :
      ∀ thread, thread ≠ actor → after thread = before thread)
    (awake : cond.asleep (after actor) = false)
    (budget :
      left + (cond.notified (before actor)).toNat ≤
        available + (cond.notified (after actor)).toNat) :
    cond.Covered left after := by
  intro someone
  have asleepMoves :
      population cond.asleep after +
          (cond.asleep (before actor)).toNat =
        population cond.asleep before +
          (cond.asleep (after actor)).toNat :=
    population_change actor
      (fun thread different => by rw [others thread different])
  have notifiedMoves :
      population cond.notified after +
          (cond.notified (before actor)).toNat =
        population cond.notified before +
          (cond.notified (after actor)).toNat :=
    population_change actor
      (fun thread different => by rw [others thread different])
  rw [awake, Bool.toNat_false, Nat.add_zero] at asleepMoves
  have sleepers : 0 < population cond.asleep before := by
    omega
  have enough := covered sleepers
  omega

/-- `move` for a thread whose local state is overwritten. -/
theorem update
    [DecidableEq Thread]
    {cond : CondVar Local}
    {locals : Thread → Local}
    {available left : Nat}
    (covered : cond.Covered available locals)
    (actor : Thread)
    {place : Local}
    (awake : cond.asleep place = false)
    (budget :
      left + (cond.notified (locals actor)).toNat ≤
        available + (cond.notified place).toNat) :
    cond.Covered left (Function.update locals actor place) := by
  refine covered.move actor ?_ ?_ ?_
  · intro thread notActor
    exact Function.update_of_ne notActor _ _
  · simpa using awake
  · simpa using budget

/-- A thread that was not notified moves on. -/
theorem update_unnotified
    [DecidableEq Thread]
    {cond : CondVar Local}
    {locals : Thread → Local}
    {available : Nat}
    (covered : cond.Covered available locals)
    (actor : Thread)
    {place : Local}
    (awake : cond.asleep place = false)
    (unnotified : cond.notified (locals actor) = false) :
    cond.Covered available (Function.update locals actor place) := by
  refine covered.update actor awake ?_
  simp [unnotified]

/-- A signal pays for one more available unit. -/
theorem signal
    [DecidableEq Thread]
    {cond : CondVar Local}
    {locals : Thread → Local}
    {available : Nat}
    {targets : Finset Thread}
    (covered : cond.Covered available locals)
    (signals : cond.Signals locals targets) :
    cond.Covered (available + 1)
      (cond.notify targets locals) := by
  intro someone
  have asleepMoves := population_asleep_notify signals
  have notifiedMoves := population_notified_notify signals
  have sleepers : 0 < population cond.asleep locals := by
    omega
  have chosen : 0 < targets.card :=
    Finset.card_pos.mpr
      (signals.someone (population_pos.mp sleepers))
  have enough := covered sleepers
  omega

end Covered

end Counting

end CondVar

end SThread.Library
