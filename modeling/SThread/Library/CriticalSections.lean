import SThread.Library.Interleaving

namespace SThread.Library

/-!
# Critical sections

Programs that touch the data they share between lock and unlock only.  Each
program can be read in two ways: step by step under the lock, or as if every
critical section were one step.
-/

/-- Shared data and whether somebody holds its lock. -/
structure Guarded (Data : Type*) where
  locked : Bool
  data : Data
  deriving DecidableEq, Repr

/-- The steps of such programs, and the places where they hold the lock. -/
structure Discipline (Local Data : Type*) where
  holds : Local → Bool
  outside : Local → Local → Prop
  lock : Local → Local → Prop
  inside : Local → Data → Local → Data → Prop
  unlock : Local → Local → Prop
  outside_free :
    ∀ {place later},
      outside place later →
      holds place = false ∧ holds later = false
  lock_takes :
    ∀ {place later},
      lock place later →
      holds place = false ∧ holds later = true
  inside_keeps :
    ∀ {place data later data'},
      inside place data later data' →
      holds place = true ∧ holds later = true
  unlock_gives :
    ∀ {place later},
      unlock place later →
      holds place = true ∧ holds later = false

namespace Discipline

variable
    {Local Data : Type*}
    (discipline : Discipline Local Data)

/-- One step under the lock; a lock that is held has to be waited for. -/
inductive Step :
    Local → Guarded Data → Local → Guarded Data → Prop where
  | outside
      {place later : Local}
      (guarded : Guarded Data)
      (step : discipline.outside place later) :
      Step place guarded later guarded
  | lock
      {place later : Local}
      (data : Data)
      (step : discipline.lock place later) :
      Step place ⟨false, data⟩ later ⟨true, data⟩
  | inside
      {place later : Local}
      (locked : Bool)
      {data data' : Data}
      (step : discipline.inside place data later data') :
      Step place ⟨locked, data⟩ later ⟨locked, data'⟩
  | unlock
      {place later : Local}
      (locked : Bool)
      (data : Data)
      (step : discipline.unlock place later) :
      Step place ⟨locked, data⟩ later ⟨false, data⟩

/-- What a program does from some place on until it gives the lock back. -/
def body
    (place : Local) : Program Local Data where
  entry := place
  step := discipline.inside
  returns last := ∃ later, discipline.unlock last later

/-- One step, when a critical section is one. -/
inductive AtomicStep :
    Local → Data → Local → Data → Prop where
  | outside
      {place later : Local}
      (data : Data)
      (step : discipline.outside place later) :
      AtomicStep place data later data
  | whole
      {place first last later : Local}
      {data data' : Data}
      (lock : discipline.lock place first)
      (course :
        (discipline.body first).Course first data last data')
      (unlock : discipline.unlock last later) :
      AtomicStep place data later data'

variable
    {discipline}
    {place later : Local}
    {data data' : Data}

/-- Nobody leaves a critical section without giving the lock back. -/
theorem holds_course
    {first : Local}
    (course :
      (discipline.body first).Course place data later data')
    (holds : discipline.holds place = true) :
    discipline.holds later = true := by
  induction course with
  | refl =>
      exact holds
  | step _ step _ =>
      exact (discipline.inside_keeps step).2

/-- Between whole critical sections nobody holds the lock. -/
theorem AtomicStep.free
    (step : discipline.AtomicStep place data later data') :
    discipline.holds later = false := by
  cases step with
  | outside data step =>
      exact (discipline.outside_free step).2
  | whole lock course unlock =>
      exact (discipline.unlock_gives unlock).2

end Discipline

end SThread.Library
