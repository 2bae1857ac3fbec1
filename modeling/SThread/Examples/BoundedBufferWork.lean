import Mathlib.Data.Prod.Lex
import Mathlib.Order.WellFounded
import SThread.Examples.BoundedBufferFlow

namespace SThread.Examples.BoundedBuffer

open SThread.Library
open SThread.Sync
open SThread.Sync.HandOff (Party)

/-!
# The work that is left

Every act of a thread brings it closer to the end of its loop, but for a wait
that falls asleep again.  A thread sleeps again only when it was woken up, and
but for spurious wake-ups it takes a post of another thread to do that.  So
without them the acts run out.
-/

/-- How many acts a thread has before it in its round. -/
def Place.ahead : Place → Nat
  | .loop => 8
  | .waiting => 7
  | .locking => 6
  | .access => 5
  | .bumping => 4
  | .unlocking => 3
  | .post => 2
  | .posting => 1
  | .adding => 0

namespace Progress

/-- The acts of a thread up to the end of its loop, falling asleep apart. -/
def work
    (items : Nat)
    (progress : Progress) : Nat :=
  (items - progress.rounds) * 9 + progress.place.ahead

/-- A thread in the middle of a round has not finished them all. -/
def Limited
    (items : Nat)
    (progress : Progress) : Prop :=
  progress.rounds ≤ items ∧
    (progress.place ≠ .loop → progress.rounds < items)

variable
    {items : Nat}
    {role : Party}
    {place : Place}
    {rounds : Nat}

/-- Going on in a round leaves less work. -/
theorem goes_on
    {further : Place}
    (more : rounds < items)
    (closer : further.ahead < place.ahead) :
    Limited items ⟨role, further, rounds⟩ ∧
      work items ⟨role, further, rounds⟩ <
        work items ⟨role, place, rounds⟩ := by
  refine ⟨⟨more.le, fun _ => more⟩, ?_⟩
  simpa [work] using closer

/-- So does finishing it. -/
theorem finishes
    (more : rounds < items) :
    Limited items ⟨role, .loop, rounds + 1⟩ ∧
      work items ⟨role, .loop, rounds + 1⟩ <
        work items ⟨role, place, rounds⟩ := by
  refine ⟨⟨more, fun inRound => (inRound rfl).elim⟩, ?_⟩
  simp only [work, Place.ahead]
  omega

end Progress

section

variable
    {Thread : Type}
    {program : Program Thread}

/-- Where every thread is in its rounds. -/
def State.Limited
    (program : Program Thread)
    (state : State Thread) : Prop :=
  ∀ thread,
    (state.progress program thread).Limited (program.items thread)

/-- Whether a thread is not asleep in its wait. -/
def State.awake
    (program : Program Thread)
    (state : State Thread)
    (thread : Thread) : Nat :=
  (!((state.own program thread).pc thread).asleep).toNat

/-- What is left to do. -/
def State.measure
    (program : Program Thread)
    (state : State Thread) :
    (Thread → Nat) ×ₗ (Thread → Nat) :=
  toLex (
    fun thread =>
      (state.progress program thread).work (program.items thread),
    state.awake program)

variable
    [DecidableEq Thread]
    {state later : State Thread}

/-- A thread goes to sleep again. -/
def State.sleep
    (program : Program Thread)
    (state : State Thread)
    (thread : Thread) : State Thread :=
  state.setSem (program.role thread)
    ((state.own program thread).setPc thread (.waiting .asleep))

/-- A move puts a thread to sleep or leaves it less work. -/
theorem Move.advances
    (move : Move program state later)
    (limited : state.Limited program) :
    (∃ thread,
      ((state.own program thread).pc thread).atWaitTest = true ∧
        later = state.sleep program thread) ∨
      ∃ thread after,
        later.progress program =
            Function.update (state.progress program) thread after ∧
          after.Limited (program.items thread) ∧
            after.work (program.items thread) <
              (state.progress program thread).work
                (program.items thread) := by
  have busy :
      ∀ {thread place},
        state.place thread = place →
        place ≠ .loop →
        state.rounds thread < program.items thread := by
    rintro thread _ rfl inRound
    exact (limited thread).2 inRound
  have here' :
      ∀ {thread place},
        state.place thread = place →
        state.progress program thread =
          ⟨program.role thread, place, state.rounds thread⟩ := by
    rintro thread _ rfl
    rfl
  cases move with
  | sleeps thread here testing empty =>
      exact Or.inl ⟨thread, testing, rfl⟩
  | begins thread here more =>
      refine Or.inr ⟨thread, _, State.progress_setPlace _ _ _ _, ?_⟩
      rw [here' here]
      exact Progress.goes_on more (by decide)
  | takes thread here testing available
  | lock thread here free
  | store thread producer here
  | push thread producer here
  | load thread consumer here
  | advance thread consumer here
  | unlock thread here
  | callsPost thread here =>
      refine Or.inr
        ⟨thread, _, state.progress_setPlace program thread _, ?_⟩
      rw [here' here]
      exact Progress.goes_on (busy here (by decide)) (by decide)
  | posts thread targets here entered signals =>
      refine Or.inr ⟨thread, _, State.progress_leave _ _ _, ?_⟩
      have more := busy here (by decide)
      unfold Progress.left
      cases role : program.role thread with
      | producer =>
          simp only [State.progress, State.setSem, role, here]
          exact Progress.finishes more
      | consumer =>
          simp only [State.progress, State.setSem, role, here]
          exact Progress.goes_on more (by decide)
  | add thread here =>
      refine Or.inr
        ⟨thread, _, state.progress_finish program thread, ?_⟩
      rw [here' here]
      exact Progress.finishes (busy here (by decide))

/-- No thread does more rounds than it has items. -/
theorem reachable_limited
    (reachable : (system program).Reachable state) :
    state.Limited program := by
  refine reachable_of_move (State.Limited program) ?_ ?_ ?_ reachable
  · intro thread
    exact ⟨Nat.zero_le _, fun inRound => (inRound rfl).elim⟩
  · intro before after _ limited move other
    rcases move.advances limited with
      ⟨thread, _, rfl⟩ | ⟨thread, progress, moved, within, _⟩
    · exact limited other
    · rw [moved]
      by_cases itself : other = thread
      · subst itself
        rw [Function.update_self]
        exact within
      · rw [Function.update_of_ne itself]
        exact limited other
  · intro before owner thread _ limited
    exact limited

/-- A thread that goes to sleep leaves the others awake. -/
theorem State.sleep_measure
    {thread : Thread}
    (testing : ((state.own program thread).pc thread).atWaitTest = true) :
    (state.sleep program thread).measure program <
      state.measure program := by
  refine lex_lt_of_le (le_refl _) (ranks_lt thread ?_ ?_)
  · intro other different
    by_cases sameRole : program.role other = program.role thread
    · simp [State.awake, State.own, State.sleep, State.setSem, sameRole,
        Sync.State.setPc, Function.update_of_ne different]
    · simp [State.awake, State.own, State.sleep, State.setSem,
        Function.update_of_ne sameRole]
  · have wasAwake :
        ((state.own program thread).pc thread).asleep = false := by
      rw [Bool.eq_false_iff]
      intro asleep
      rw [Pc.asleep_iff.mp asleep] at testing
      contradiction
    unfold State.awake
    rw [wasAwake]
    simp [State.own, State.sleep, State.setSem, Sync.State.setPc,
      Pc.asleep]

/-- Every move leaves less to do. -/
theorem Move.measure_lt
    (move : Move program state later)
    (limited : state.Limited program) :
    later.measure program < state.measure program := by
  rcases move.advances limited with
    ⟨thread, testing, rfl⟩ | ⟨thread, after, moved, _, closer⟩
  · exact State.sleep_measure testing
  · refine lex_lt_of_lt (ranks_lt thread ?_ ?_)
    · intro other different
      rw [moved, Function.update_of_ne different]
    · rw [moved, Function.update_self]
      exact closer

/-- However long a run has been, threads that never wake up spuriously stop acting. -/
theorem reachable_spurious
    [Finite Thread]
    (reachable : (system program).Reachable state)
    {run : Nat → State Thread}
    (first : run 0 = state)
    (steps : ∀ time, Next program (run time) (run (time + 1)))
    (settled : Nat) :
    ∃ time,
      settled ≤ time ∧
        ¬ Act program (run time) (run (time + 1)) := by
  by_contra never
  have during : ∀ time, (system program).Reachable (run time) := by
    intro time
    induction time with
    | zero =>
        exact first ▸ reachable
    | succ time inductionHypothesis =>
        exact inductionHypothesis.step (steps time)
  have decreases :
      ∀ time,
        (run (settled + (time + 1))).measure program <
          (run (settled + time)).measure program := by
    intro time
    have act :
        Act program (run (settled + time)) (run (settled + time + 1)) := by
      by_contra idle
      exact never ⟨settled + time, Nat.le_add_right _ _, idle⟩
    have control := reachable_control (during (settled + time))
    exact (control.move act).measure_lt (reachable_limited (during _))
  exact not_strictAnti_of_wellFoundedLT
    (fun time => (run (settled + time)).measure program)
    (strictAnti_nat_of_succ_lt decreases)

end

end SThread.Examples.BoundedBuffer
