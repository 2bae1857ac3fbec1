import Mathlib.Data.List.Perm.Basic
import Mathlib.Data.Set.Lattice
import Mathlib.Logic.Relation
import Mathlib.Order.CompletePartialOrder

namespace SThread.Library

/-!
# Programs that share a memory

Several programs take turns on one memory.  Two of them are independent when a
step of one that comes after a step of the other could as well have come
before it.  Independent programs leave the memory as if they had run one after
the other, in whatever order, and so do programs that change no cell another
one looks at.
-/

/-- Where a program starts, what its steps do to the memory, where it returns. -/
structure Program (Local Memory : Type*) where
  entry : Local
  step : Local → Memory → Local → Memory → Prop
  returns : Local → Prop

namespace Program

variable
    {Local Memory : Type*}

/-- The places a program can get to, whatever others do to the memory. -/
inductive Visits
    (program : Program Local Memory) : Local → Prop where
  | entry :
      Visits program program.entry
  | step
      {place later : Local}
      {memory memory' : Memory}
      (visited : Visits program place)
      (step : program.step place memory later memory') :
      Visits program later

/-- Some steps of a program with nobody else in between. -/
inductive Course
    (program : Program Local Memory)
    (place : Local)
    (memory : Memory) :
    Local → Memory → Prop where
  | refl :
      Course program place memory place memory
  | step
      {middle later : Local}
      {between memory' : Memory}
      (course : Course program place memory middle between)
      (step : program.step middle between later memory') :
      Course program place memory later memory'

/-- A course goes on where another one has ended. -/
theorem Course.trans
    {program : Program Local Memory}
    {place middle later : Local}
    {memory between memory' : Memory}
    (first : program.Course place memory middle between)
    (second : program.Course middle between later memory') :
    program.Course place memory later memory' := by
  induction second with
  | refl =>
      exact first
  | step course step inductionHypothesis =>
      exact inductionHypothesis.step step

/-- The whole program, from its entry until it returns. -/
def Runs
    (program : Program Local Memory)
    (memory memory' : Memory) : Prop :=
  ∃ place,
    program.Course program.entry memory place memory' ∧
      program.returns place

/-- A step of `late` right after a step of `early` could have come before it. -/
def MovesBefore
    (late early : Program Local Memory) : Prop :=
  ∀ place later earlyPlace earlyLater memory between memory',
    late.Visits place →
    early.Visits earlyPlace →
    early.step earlyPlace memory earlyLater between →
    late.step place between later memory' →
    ∃ instead,
      late.step place memory later instead ∧
        early.step earlyPlace instead earlyLater memory'

/-- Steps of either program move before those of the other. -/
def Independent
    (first second : Program Local Memory) : Prop :=
  first.MovesBefore second ∧ second.MovesBefore first

/-- Independence does not depend on the order. -/
theorem Independent.symm
    {first second : Program Local Memory}
    (independent : first.Independent second) :
    second.Independent first :=
  And.symm independent

/-- A course from a place the program gets to ends in one it gets to. -/
theorem Visits.course
    {program : Program Local Memory}
    {place later : Local}
    {memory memory' : Memory}
    (visited : program.Visits place)
    (course : program.Course place memory later memory') :
    program.Visits later := by
  induction course with
  | refl =>
      exact visited
  | step course step inductionHypothesis =>
      exact inductionHypothesis.step step

/-- A step moves before a whole course of the other program. -/
theorem MovesBefore.course
    {late early : Program Local Memory}
    (moves : late.MovesBefore early)
    {place later earlyPlace earlyLater : Local}
    {memory between memory' : Memory}
    (visited : late.Visits place)
    (earlyVisited : early.Visits earlyPlace)
    (course : early.Course earlyPlace memory earlyLater between)
    (step : late.step place between later memory') :
    ∃ instead,
      late.step place memory later instead ∧
        early.Course earlyPlace instead earlyLater memory' := by
  induction course generalizing memory' with
  | refl =>
      exact ⟨memory', step, .refl⟩
  | step course earlyStep inductionHypothesis =>
      obtain ⟨swapped, lateStep, earlyAfter⟩ :=
        moves _ _ _ _ _ _ _ visited (earlyVisited.course course)
          earlyStep step
      obtain ⟨instead, first, rest⟩ :=
        inductionHypothesis lateStep
      exact ⟨instead, first, rest.step earlyAfter⟩

/-- A course moves before a whole course of the other program. -/
theorem MovesBefore.courses
    {late early : Program Local Memory}
    (moves : late.MovesBefore early)
    {place later earlyPlace earlyLater : Local}
    {memory between memory' : Memory}
    (visited : late.Visits place)
    (earlyVisited : early.Visits earlyPlace)
    (earlyCourse : early.Course earlyPlace memory earlyLater between)
    (course : late.Course place between later memory') :
    ∃ instead,
      late.Course place memory later instead ∧
        early.Course earlyPlace instead earlyLater memory' := by
  induction course with
  | refl =>
      exact ⟨memory, .refl, earlyCourse⟩
  | step course step inductionHypothesis =>
      obtain ⟨middle, first, second⟩ :=
        inductionHypothesis
      obtain ⟨instead, lateStep, rest⟩ :=
        moves.course (visited.course course) earlyVisited second step
      exact ⟨instead, first.step lateStep, rest⟩

/-- Whole runs of independent programs swap. -/
theorem MovesBefore.runs
    {late early : Program Local Memory}
    (moves : late.MovesBefore early)
    {memory between memory' : Memory}
    (earlyRuns : early.Runs memory between)
    (runs : late.Runs between memory') :
    ∃ instead,
      late.Runs memory instead ∧ early.Runs instead memory' := by
  obtain ⟨earlyPlace, earlyCourse, earlyReturns⟩ := earlyRuns
  obtain ⟨place, course, returns⟩ := runs
  obtain ⟨instead, first, second⟩ :=
    moves.courses .entry .entry earlyCourse course
  exact ⟨instead, ⟨place, first, returns⟩,
    ⟨earlyPlace, second, earlyReturns⟩⟩

/-- The programs of a list run one after the other. -/
inductive Serially :
    List (Program Local Memory) → Memory → Memory → Prop where
  | nil
      (memory : Memory) :
      Serially [] memory memory
  | cons
      {program : Program Local Memory}
      {programs : List (Program Local Memory)}
      {memory between memory' : Memory}
      (runs : program.Runs memory between)
      (rest : Serially programs between memory') :
      Serially (program :: programs) memory memory'

/-- Independent programs leave the same memory in whatever order they run. -/
theorem Serially.perm
    {programs programs' : List (Program Local Memory)}
    (reordered : programs.Perm programs')
    (independent : programs.Pairwise Independent)
    {memory memory' : Memory}
    (serially : Serially programs memory memory') :
    Serially programs' memory memory' := by
  induction reordered generalizing memory with
  | nil =>
      exact serially
  | cons program reordered inductionHypothesis =>
      cases serially with
      | cons runs rest =>
          exact .cons runs
            (inductionHypothesis independent.of_cons rest)
  | swap first second programs =>
      cases serially with
      | cons secondRuns rest =>
          cases rest with
          | cons firstRuns rest =>
              have together :=
                List.rel_of_pairwise_cons independent
                  List.mem_cons_self
              obtain ⟨instead, runs, runs'⟩ :=
                together.2.runs secondRuns firstRuns
              exact .cons runs (.cons runs' rest)
  | trans reordered reordered' first second =>
      exact second
        ((reordered.pairwise_iff fun independent =>
          Independent.symm independent).mp independent)
        (first independent serially)

/-- Programs whose effect is known leave what their effects leave in order. -/
theorem Serially.foldl
    {Task : Type*}
    {program : Task → Program Local Memory}
    {effect : Memory → Task → Memory}
    (runs :
      ∀ task memory memory',
        (program task).Runs memory memory' →
        memory' = effect memory task)
    {tasks : List Task}
    {memory memory' : Memory}
    (serially : Serially (tasks.map program) memory memory') :
    memory' = tasks.foldl effect memory := by
  induction tasks generalizing memory with
  | nil =>
      cases serially with
      | nil memory =>
          rfl
  | cons task tasks inductionHypothesis =>
      cases serially with
      | cons run rest =>
          rw [List.foldl_cons, ← runs task _ _ run]
          exact inductionHypothesis rest

/-- The programs of a list have got somewhere, one after the other. -/
inductive Partly :
    List (Program Local Memory × Local) → Memory → Memory → Prop where
  | nil
      (memory : Memory) :
      Partly [] memory memory
  | cons
      {program : Program Local Memory}
      {place : Local}
      {others : List (Program Local Memory × Local)}
      {memory between memory' : Memory}
      (course : program.Course program.entry memory place between)
      (rest : Partly others between memory') :
      Partly ((program, place) :: others) memory memory'

/-- A program that is at its entry comes last. -/
theorem Partly.enter
    {others : List (Program Local Memory × Local)}
    {memory memory' : Memory}
    (partly : Partly others memory memory')
    (program : Program Local Memory) :
    Partly (others ++ [(program, program.entry)]) memory memory' := by
  induction partly with
  | nil memory =>
      exact .cons .refl (.nil memory)
  | cons course rest inductionHypothesis =>
      exact .cons course inductionHypothesis

/-- A step of one program moves before those that come later in the list. -/
theorem Partly.move
    {others : List (Program Local Memory × Local)}
    {memory between memory' : Memory}
    (partly : Partly others memory between)
    {program : Program Local Memory}
    {place later : Local}
    (visited : program.Visits place)
    (moves : ∀ other ∈ others, program.MovesBefore other.1)
    (step : program.step place between later memory') :
    ∃ instead,
      program.step place memory later instead ∧
        Partly others instead memory' := by
  induction partly with
  | nil memory =>
      exact ⟨memory', step, .nil memory'⟩
  | cons course rest inductionHypothesis =>
      obtain ⟨middle, stepThere, after⟩ :=
        inductionHypothesis
          (fun other member => moves other (List.mem_cons_of_mem _ member))
          step
      obtain ⟨instead, stepHere, courseAfter⟩ :=
        (moves _ List.mem_cons_self).course visited .entry course
          stepThere
      exact ⟨instead, stepHere, .cons courseAfter after⟩

/-- A step of one program is one more step where it stands in the list. -/
theorem Partly.step
    {before after : List (Program Local Memory × Local)}
    {program : Program Local Memory}
    {place later : Local}
    {memory between memory' : Memory}
    (partly :
      Partly (before ++ (program, place) :: after) memory between)
    (moves : ∀ other ∈ after, program.MovesBefore other.1)
    (step : program.step place between later memory') :
    Partly (before ++ (program, later) :: after) memory memory' := by
  induction before generalizing memory with
  | nil =>
      cases partly with
      | cons course rest =>
          obtain ⟨instead, stepHere, restAfter⟩ :=
            rest.move (Visits.entry.course course) moves step
          exact .cons (course.step stepHere) restAfter
  | cons head before inductionHypothesis =>
      cases partly with
      | cons course rest =>
          exact .cons course (inductionHypothesis rest)

/-- The programs of two lists have got somewhere, first one list, then the other. -/
theorem Partly.split
    {before after : List (Program Local Memory × Local)}
    {memory memory' : Memory}
    (partly : Partly (before ++ after) memory memory') :
    ∃ between,
      Partly before memory between ∧ Partly after between memory' := by
  induction before generalizing memory with
  | nil =>
      exact ⟨memory, .nil memory, partly⟩
  | cons head before inductionHypothesis =>
      cases partly with
      | cons course rest =>
          obtain ⟨between, first, second⟩ := inductionHypothesis rest
          exact ⟨between, .cons course first, second⟩

/-- When all programs have returned they have run one after the other. -/
theorem Partly.serially
    {programs : List (Program Local Memory × Local)}
    {memory memory' : Memory}
    (partly : Partly programs memory memory')
    (returned : ∀ item ∈ programs, item.1.returns item.2) :
    Serially (programs.map Prod.fst) memory memory' := by
  induction partly with
  | nil memory =>
      exact .nil memory
  | cons course rest inductionHypothesis =>
      exact .cons ⟨_, course, returned _ List.mem_cons_self⟩
        (inductionHypothesis
          (fun item member =>
            returned item (List.mem_cons_of_mem _ member)))

end Program

/-- A program that changes some cells and looks at some, these among them. -/
structure Program.Confined
    {Local Address Value : Type*}
    (program : Program Local (Address → Value))
    (looksAt changes : Set Address) : Prop where
  within :
    changes ⊆ looksAt
  frame :
    ∀ place later memory memory',
      program.Visits place →
      program.step place memory later memory' →
      ∀ address,
        address ∉ changes → memory' address = memory address
  determined :
    ∀ place later memory memory' other,
      program.Visits place →
      program.step place memory later memory' →
      (∀ address ∈ looksAt, other address = memory address) →
      ∃ other',
        program.step place other later other' ∧
          ∀ address ∈ changes, other' address = memory' address

namespace Program.Confined

variable
    {Local Address Value : Type*}
    {first second : Program Local (Address → Value)}
    {looksAt changes looksAt' changes' : Set Address}

/-- Steps move before those of a program that looks at other cells. -/
theorem movesBefore
    (late : first.Confined looksAt changes)
    (early : second.Confined looksAt' changes')
    (unseen : Disjoint changes looksAt')
    (unseen' : Disjoint changes' looksAt) :
    first.MovesBefore second := by
  intro place later earlyPlace earlyLater memory between memory'
    visited earlyVisited earlyStep step
  have earlyFrame := early.frame _ _ _ _ earlyVisited earlyStep
  have lateFrame := late.frame _ _ _ _ visited step
  obtain ⟨instead, stepHere, changed⟩ :=
    late.determined _ _ _ _ memory visited step (by
      intro address looked
      exact (earlyFrame address
        (Set.disjoint_right.mp unseen' looked)).symm)
  have hereFrame := late.frame _ _ _ _ visited stepHere
  obtain ⟨last, earlyAfter, earlyChanged⟩ :=
    early.determined _ _ _ _ instead earlyVisited earlyStep (by
      intro address looked
      exact hereFrame address (Set.disjoint_right.mp unseen looked))
  have lastFrame := early.frame _ _ _ _ earlyVisited earlyAfter
  have same : last = memory' := by
    funext address
    by_cases byEarly : address ∈ changes'
    · have notLate : address ∉ changes := fun byLate =>
        Set.disjoint_left.mp unseen byLate (early.within byEarly)
      rw [earlyChanged address byEarly, lateFrame address notLate]
    · rw [lastFrame address byEarly]
      by_cases byLate : address ∈ changes
      · exact changed address byLate
      · rw [hereFrame address byLate, lateFrame address byLate,
          earlyFrame address byEarly]
  rw [same] at earlyAfter
  exact ⟨instead, stepHere, earlyAfter⟩

/-- Programs that change no cell the other looks at are independent. -/
theorem independent
    (late : first.Confined looksAt changes)
    (early : second.Confined looksAt' changes')
    (unseen : Disjoint changes looksAt')
    (unseen' : Disjoint changes' looksAt) :
    first.Independent second :=
  ⟨late.movesBefore early unseen unseen',
    early.movesBefore late unseen' unseen⟩

end Program.Confined

/-- A program that changes the memory in some ways without looking at it. -/
def Program.Updates
    {Local Memory : Type*}
    (program : Program Local Memory)
    (changes : Set (Memory → Memory)) : Prop :=
  ∀ place later memory memory',
    program.step place memory later memory' →
    ∃ change ∈ changes,
      memory' = change memory ∧
        ∀ other, program.step place other later (change other)

namespace Program.Updates

variable
    {Local Memory : Type*}
    {first second : Program Local Memory}
    {changes changes' : Set (Memory → Memory)}

/-- Changes that commute move before each other. -/
theorem movesBefore
    (late : first.Updates changes)
    (early : second.Updates changes')
    (commute :
      ∀ change ∈ changes,
        ∀ change' ∈ changes', Function.Commute change change') :
    first.MovesBefore second := by
  intro place later earlyPlace earlyLater memory between memory' _ _
    earlyStep step
  obtain ⟨change, member, rfl, again⟩ := late _ _ _ _ step
  obtain ⟨change', member', rfl, again'⟩ := early _ _ _ _ earlyStep
  refine ⟨change memory, again memory, ?_⟩
  rw [commute change member change' member' memory]
  exact again' _

/-- Programs whose changes commute are independent. -/
theorem independent
    (late : first.Updates changes)
    (early : second.Updates changes')
    (commute :
      ∀ change ∈ changes,
        ∀ change' ∈ changes', Function.Commute change change') :
    first.Independent second :=
  ⟨late.movesBefore early commute,
    early.movesBefore late
      (fun change' member' change member =>
        (commute change member change' member').symm)⟩

end Program.Updates

end SThread.Library
