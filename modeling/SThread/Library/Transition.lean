import Mathlib.Data.DFinsupp.WellFounded
import Mathlib.Data.Prod.Lex
import Mathlib.Logic.Relation
import Mathlib.Order.OrderIsoNat

namespace SThread.Library

/-!
# Transition systems

Runs of a nondeterministic system, the rule that carries an invariant along
every run, the stuttering simulation between two systems, and the rule that a
well-founded measure allows only finitely many steps of a selected kind.

Nothing here mentions a particular program.
-/

/-- A transition system: the states a run may start in, and one step. -/
structure System (State : Type) where
  init : State → Prop
  next : State → State → Prop

namespace System

/-- `later` is the end of some finite run of the system that begins at `first`. -/
def Run
    {State : Type}
    (system : System State)
    (first later : State) : Prop :=
  Relation.ReflTransGen system.next first later

/-- `state` lies on some run of the system. -/
def Reachable
    {State : Type}
    (system : System State)
    (state : State) : Prop :=
  ∃ first, system.init first ∧ system.Run first state

/-- Keep only the steps that satisfy an extra condition on the step. -/
def restrict
    {State : Type}
    (system : System State)
    (condition : State → State → Prop) : System State where
  init :=
    system.init
  next state later :=
    system.next state later ∧ condition state later

/-- Initial states are reachable. -/
theorem Reachable.start
    {State : Type}
    {system : System State}
    {state : State}
    (initial : system.init state) :
    system.Reachable state :=
  ⟨state, initial, .refl⟩

/-- One more step from a reachable state is reachable. -/
theorem Reachable.step
    {State : Type}
    {system : System State}
    {state later : State}
    (reachable : system.Reachable state)
    (step : system.next state later) :
    system.Reachable later := by
  obtain ⟨first, initial, run⟩ := reachable
  exact ⟨first, initial, run.tail step⟩

/-- A reachable state is the end of a run that begins there. -/
theorem Reachable.stay
    {State : Type}
    {system : System State}
    {state : State}
    (_ : system.Reachable state) :
    system.Run state state :=
  .refl

/-- A run from a reachable state ends in a reachable state. -/
theorem Reachable.run
    {State : Type}
    {system : System State}
    {state later : State}
    (reachable : system.Reachable state)
    (run : system.Run state later) :
    system.Reachable later := by
  obtain ⟨first, initial, before⟩ := reachable
  exact ⟨first, initial, before.trans run⟩

/--
A property that holds initially and is preserved by every step from a reachable
state holds in every reachable state.
-/
theorem Reachable.invariant
    {State : Type}
    {system : System State}
    (property : State → Prop)
    (initially :
      ∀ state, system.init state → property state)
    (preserved :
      ∀ state later,
        system.Reachable state →
        property state →
        system.next state later →
        property later)
    {state : State}
    (reachable : system.Reachable state) :
    property state := by
  obtain ⟨first, initial, run⟩ := reachable
  induction run with
  | refl =>
      exact initially first initial
  | @tail middle last before step inductionHypothesis =>
      exact preserved middle last
        ⟨first, initial, before⟩ inductionHypothesis step

/-- What a map makes of a reachable state is reachable when it maps steps to steps. -/
theorem Reachable.map
    {State Image : Type}
    {system : System State}
    {image : System Image}
    (view : State → Image)
    (initially :
      ∀ state, system.init state → image.init (view state))
    (steps :
      ∀ state later,
        system.next state later →
        image.next (view state) (view later))
    {state : State}
    (reachable : system.Reachable state) :
    image.Reachable (view state) := by
  refine reachable.invariant
    (fun state => image.Reachable (view state)) ?_ ?_
  · intro first initial
    exact .start (initially first initial)
  · intro before after _ reached step
    exact reached.step (steps before after step)

/--
A property preserved by every step from a reachable state is preserved by every
run from a reachable state.
-/
theorem Reachable.stable
    {State : Type}
    {system : System State}
    (property : State → Prop)
    (preserved :
      ∀ state later,
        system.Reachable state →
        property state →
        system.next state later →
        property later)
    {state later : State}
    (reachable : system.Reachable state)
    (run : system.Run state later)
    (holds : property state) :
    property later := by
  induction run with
  | refl =>
      exact holds
  | @tail middle last before step inductionHypothesis =>
      exact preserved middle last
        (reachable.run before) inductionHypothesis step

/-- A run of a restricted system is a run of the system. -/
theorem Run.of_restrict
    {State : Type}
    {system : System State}
    {condition : State → State → Prop}
    {state later : State}
    (run : (system.restrict condition).Run state later) :
    system.Run state later :=
  Relation.ReflTransGen.mono (fun _ _ step => step.1) _ _ run

/-- A state reachable under an extra condition on the steps is reachable. -/
theorem Reachable.of_restrict
    {State : Type}
    {system : System State}
    {condition : State → State → Prop}
    {state : State}
    (reachable : (system.restrict condition).Reachable state) :
    system.Reachable state := by
  obtain ⟨first, initial, run⟩ := reachable
  exact ⟨first, initial, Run.of_restrict run⟩

end System

/--
A stuttering simulation: related states stay related when every concrete step is
answered by some abstract run, possibly an empty one.
-/
structure Simulation
    {Concrete Abstract : Type}
    (concrete : System Concrete)
    (abstract : System Abstract)
    (related : Concrete → Abstract → Prop) : Prop where
  init :
    ∀ state,
      concrete.init state →
      ∃ image, abstract.init image ∧ related state image
  next :
    ∀ state later image,
      related state image →
      concrete.next state later →
      ∃ laterImage,
        abstract.Run image laterImage ∧ related later laterImage

namespace Simulation

/-- Every reachable concrete state is related to a reachable abstract state. -/
theorem reachable
    {Concrete Abstract : Type}
    {concrete : System Concrete}
    {abstract : System Abstract}
    {related : Concrete → Abstract → Prop}
    (simulation : Simulation concrete abstract related)
    {state : Concrete}
    (reached : concrete.Reachable state) :
    ∃ image, abstract.Reachable image ∧ related state image := by
  refine System.Reachable.invariant
    (fun state =>
      ∃ image, abstract.Reachable image ∧ related state image)
    ?_ ?_ reached
  · intro first initial
    obtain ⟨image, imageInitial, together⟩ :=
      simulation.init first initial
    exact ⟨image, .start imageInitial, together⟩
  · rintro middle last _ ⟨image, imageReached, together⟩ step
    obtain ⟨laterImage, run, stillTogether⟩ :=
      simulation.next middle last image together step
    exact ⟨laterImage, imageReached.run run, stillTogether⟩

end Simulation

/-- A measure that never increases along an infinite sequence is constant in the end. -/
theorem eventually_constant
    {State Measure : Type*}
    [PartialOrder Measure]
    [WellFoundedLT Measure]
    (measure : State → Measure)
    (run : Nat → State)
    (bounded :
      ∀ time, measure (run (time + 1)) ≤ measure (run time)) :
    ∃ settled,
      ∀ time,
        settled ≤ time →
        measure (run (time + 1)) = measure (run time) := by
  have antitone : Antitone (fun time => measure (run time)) :=
    antitone_nat_of_succ_le bounded
  obtain ⟨settled, constant⟩ :=
    WellFoundedGT.monotone_chain_condition
      (α := Measureᵒᵈ)
      ⟨fun time => OrderDual.toDual (measure (run time)), antitone⟩
  refine ⟨settled, ?_⟩
  intro time late
  have here := constant time late
  have next := constant (time + 1) (Nat.le_succ_of_le late)
  have joined := next.symm.trans here
  exact OrderDual.toDual_inj.mp joined

/--
Along an infinite sequence whose measure never increases, steps that decrease
the measure stop eventually.
-/
theorem eventually_quiet
    {State Measure : Type*}
    [PartialOrder Measure]
    [WellFoundedLT Measure]
    (measure : State → Measure)
    (busy : State → State → Prop)
    (run : Nat → State)
    (bounded :
      ∀ time, measure (run (time + 1)) ≤ measure (run time))
    (decreases :
      ∀ time,
        busy (run time) (run (time + 1)) →
        measure (run (time + 1)) < measure (run time)) :
    ∃ settled,
      ∀ time,
        settled ≤ time →
        ¬ busy (run time) (run (time + 1)) := by
  obtain ⟨settled, constant⟩ :=
    eventually_constant measure run bounded
  refine ⟨settled, ?_⟩
  intro time late active
  exact (decreases time active).ne (constant time late)

/-- A goal can be reached when short of it one can always be led closer. -/
theorem exists_reaches
    {State Measure : Type*}
    [Preorder Measure]
    [WellFoundedLT Measure]
    {leads : State → State → Prop}
    (compose :
      ∀ {first middle last},
        leads first middle → leads middle last → leads first last)
    (measure : State → Measure)
    (goal : State → Prop)
    {first : State}
    (stay : leads first first)
    (closer :
      ∀ state,
        leads first state →
        ¬ goal state →
        ∃ later, leads state later ∧ measure later < measure state) :
    ∃ last, leads first last ∧ goal last := by
  have onward :
      ∀ bound state,
        measure state = bound →
        leads first state →
        ∃ last, leads first last ∧ goal last := by
    intro bound
    induction bound using WellFoundedLT.induction with
    | ind bound inductionHypothesis =>
        intro state same led
        by_cases reached : goal state
        · exact ⟨state, led, reached⟩
        · obtain ⟨later, on, less⟩ := closer state led reached
          exact inductionHypothesis _ (same ▸ less) later rfl
            (compose led on)
  exact onward _ first rfl stay

/-- Whoever can go on at all times from some time on goes on. -/
def WeaklyFair
    {State Mover : Type*}
    (moves : Mover → State → State → Prop)
    (run : Nat → State) : Prop :=
  ∀ mover time,
    (∀ late, time ≤ late → ∃ later, moves mover (run late) later) →
    ∃ late, time ≤ late ∧ moves mover (run late) (run (late + 1))

/--
A fair sequence reaches its goal when short of it somebody can always help, whose
next step brings it closer and who can help until something does.
-/
theorem WeaklyFair.reaches
    {State Mover Measure : Type*}
    [PartialOrder Measure]
    [WellFoundedLT Measure]
    {moves : Mover → State → State → Prop}
    {run : Nat → State}
    (fair : WeaklyFair moves run)
    (measure : State → Measure)
    (goal : State → Prop)
    (helps : State → Mover → Prop)
    (bounded :
      ∀ time,
        ¬ goal (run time) →
        measure (run (time + 1)) ≤ measure (run time))
    (helped :
      ∀ time, ¬ goal (run time) → ∃ mover, helps (run time) mover)
    (enabled :
      ∀ time mover,
        helps (run time) mover →
        ∃ later, moves mover (run time) later)
    (decreases :
      ∀ time mover,
        helps (run time) mover →
        moves mover (run time) (run (time + 1)) →
        measure (run (time + 1)) < measure (run time))
    (stays :
      ∀ time mover,
        helps (run time) mover →
        measure (run (time + 1)) = measure (run time) →
        helps (run (time + 1)) mover) :
    ∃ time, goal (run time) := by
  by_contra never
  rw [not_exists] at never
  obtain ⟨settled, constant⟩ :=
    eventually_constant measure run (fun time => bounded time (never time))
  obtain ⟨mover, helpsFirst⟩ := helped settled (never settled)
  have helpsOn : ∀ late, settled ≤ late → helps (run late) mover := by
    intro late after
    induction late, after using Nat.le_induction with
    | base =>
        exact helpsFirst
    | succ late after inductionHypothesis =>
        exact stays late mover inductionHypothesis (constant late after)
  obtain ⟨late, after, move⟩ :=
    fair mover settled
      (fun late after => enabled late mover (helpsOn late after))
  exact (decreases late mover (helpsOn late after) move).ne
    (constant late after)

/-- Whoever can go on again and again goes on again and again. -/
def StronglyFair
    {State Mover : Type*}
    (moves : Mover → State → State → Prop)
    (run : Nat → State) : Prop :=
  ∀ mover,
    (∀ time,
      ∃ late, time ≤ late ∧ ∃ later, moves mover (run late) later) →
    ∀ time,
      ∃ late, time ≤ late ∧ moves mover (run late) (run (late + 1))

/-- In a fair sequence whoever has only so much left to do is stuck in the end. -/
theorem StronglyFair.stuck
    {State Mover Measure : Type*}
    [PartialOrder Measure]
    [WellFoundedLT Measure]
    {moves : Mover → State → State → Prop}
    {run : Nat → State}
    (fair : StronglyFair moves run)
    (mover : Mover)
    (measure : State → Measure)
    (since : Nat)
    (bounded :
      ∀ time,
        since ≤ time →
        measure (run (time + 1)) ≤ measure (run time))
    (decreases :
      ∀ time,
        since ≤ time →
        moves mover (run time) (run (time + 1)) →
        measure (run (time + 1)) < measure (run time)) :
    ∃ settled,
      ∀ time,
        settled ≤ time →
        ∀ later, ¬ moves mover (run time) later := by
  obtain ⟨settled, quiet⟩ :=
    eventually_quiet measure (moves mover)
      (fun time => run (since + time))
      (fun time => bounded _ (Nat.le_add_right _ _))
      (fun time => decreases _ (Nat.le_add_right _ _))
  by_contra again
  have enabled :
      ∀ time,
        ∃ late, time ≤ late ∧ ∃ later, moves mover (run late) later := by
    intro time
    by_contra never
    refine again ⟨time, fun late after later move => ?_⟩
    exact never ⟨late, after, later, move⟩
  obtain ⟨late, after, move⟩ := fair mover enabled (since + settled)
  obtain ⟨extra, rfl⟩ := Nat.exists_eq_add_of_le after
  refine quiet (settled + extra) (Nat.le_add_right _ _) ?_
  rwa [Nat.add_assoc] at move

/-- A run that ends where nobody can go on, followed by rest, is fair. -/
theorem System.Run.fairly
    {State : Type}
    {Mover : Type*}
    {system : System State}
    {first last : State}
    (finite : system.Run first last)
    {moves : Mover → State → State → Prop}
    (stuck : ∀ mover later, ¬ moves mover last later) :
    ∃ run : Nat → State,
      run 0 = first ∧
        (∀ time,
          system.next (run time) (run (time + 1)) ∨
            run (time + 1) = run time) ∧
        StronglyFair moves run := by
  have sequence :
      ∃ (run : Nat → State) (settled : Nat),
        run 0 = first ∧
          (∀ time, settled ≤ time → run time = last) ∧
          ∀ time,
            system.next (run time) (run (time + 1)) ∨
              run (time + 1) = run time := by
    induction finite using Relation.ReflTransGen.head_induction_on with
    | refl =>
        exact ⟨fun _ => last, 0, rfl, fun _ _ => rfl,
          fun _ => Or.inr rfl⟩
    | @head first second step _ inductionHypothesis =>
        obtain ⟨run, settled, starts, ends, steps⟩ := inductionHypothesis
        refine ⟨fun time => Nat.casesOn time first run, settled + 1,
          rfl, ?_, ?_⟩
        · intro time late
          cases time with
          | zero =>
              exact (Nat.not_succ_le_zero _ late).elim
          | succ time =>
              exact ends time (Nat.le_of_succ_le_succ late)
        · intro time
          cases time with
          | zero =>
              refine Or.inl ?_
              change system.next first (run 0)
              rw [starts]
              exact step
          | succ time =>
              exact steps time
  obtain ⟨run, settled, starts, ends, steps⟩ := sequence
  refine ⟨run, starts, steps, ?_⟩
  intro mover again
  obtain ⟨late, after, later, move⟩ := again settled
  rw [ends late after] at move
  exact (stuck mover later move).elim

/--
A measure that combines one number with a rank for each of several parties goes
down when the number does, or when one party's rank does and nothing else
changes.
-/
theorem measure_lt
    {Party Number Rank : Type*}
    [Preorder Number]
    [Preorder Rank]
    {number number' : Number}
    {ranks ranks' : Party → Rank}
    (actor : Party)
    (others :
      ∀ party, party ≠ actor → ranks' party = ranks party)
    (progress :
      number' < number ∨
        number' = number ∧ ranks' actor < ranks actor) :
    toLex (number', ranks') < toLex (number, ranks) := by
  rw [Prod.Lex.toLex_lt_toLex]
  rcases progress with less | ⟨same, closer⟩
  · exact Or.inl less
  · refine Or.inr ⟨same, Pi.lt_def.mpr ⟨?_, actor, closer⟩⟩
    intro party
    by_cases isActor : party = actor
    · rw [isActor]
      exact closer.le
    · exact (others party isActor).le

/-- A pair goes down when its first part does. -/
theorem lex_lt_of_lt
    {First Second : Type*}
    [LT First]
    [LT Second]
    {first first' : First}
    {second second' : Second}
    (less : first' < first) :
    toLex (first', second') < toLex (first, second) :=
  Prod.Lex.toLex_lt_toLex.mpr (Or.inl less)

/-- And when its second part does while the first goes no further up. -/
theorem lex_lt_of_le
    {First Second : Type*}
    [PartialOrder First]
    [LT Second]
    {first first' : First}
    {second second' : Second}
    (kept : first' ≤ first)
    (less : second' < second) :
    toLex (first', second') < toLex (first, second) := by
  rw [Prod.Lex.toLex_lt_toLex]
  rcases kept.lt_or_eq with lower | same
  · exact Or.inl lower
  · exact Or.inr ⟨same, less⟩

/-- The ranks of several parties go down when only one changes, and goes down. -/
theorem ranks_lt
    {Party Rank : Type*}
    [Preorder Rank]
    {ranks ranks' : Party → Rank}
    (actor : Party)
    (others :
      ∀ party, party ≠ actor → ranks' party = ranks party)
    (closer : ranks' actor < ranks actor) :
    ranks' < ranks := by
  refine Pi.lt_def.mpr ⟨?_, actor, closer⟩
  intro party
  by_cases isActor : party = actor
  · rw [isActor]
    exact closer.le
  · exact (others party isActor).le

/-- They go no further up when the one that changes does not. -/
theorem ranks_le
    {Party Rank : Type*}
    [Preorder Rank]
    {ranks ranks' : Party → Rank}
    (actor : Party)
    (others :
      ∀ party, party ≠ actor → ranks' party = ranks party)
    (kept : ranks' actor ≤ ranks actor) :
    ranks' ≤ ranks := by
  intro party
  by_cases isActor : party = actor
  · rw [isActor]
    exact kept
  · exact (others party isActor).le

end SThread.Library
