import Mathlib.Data.List.Induction

namespace SThread.Library

/-!
# Machines and their histories

A machine answers one operation after the other.  An operation that leaves the
state as it was can be removed from a history, and no other answer changes.

Nothing here mentions a particular program.
-/

/-- What every operation answers, and where it leaves the machine. -/
structure Machine (State Op Answer : Type) where
  perform : Op → State → Answer × State

namespace Machine

variable
    {State Op Answer : Type}
    (machine : Machine State Op Answer)

/-- The state after a history. -/
def after
    (state : State) :
    List Op → State
  | [] => state
  | op :: later =>
      after (machine.perform op state).2 later

/-- The answers along a history. -/
def answers
    (state : State) :
    List Op → List Answer
  | [] => []
  | op :: later =>
      (machine.perform op state).1 ::
        answers (machine.perform op state).2 later

/-- One history after another. -/
theorem answers_append
    (state : State)
    (before later : List Op) :
    machine.answers state (before ++ later) =
      machine.answers state before ++
        machine.answers (machine.after state before) later := by
  induction before generalizing state with
  | nil =>
      rfl
  | cons op rest inductionHypothesis =>
      simp [answers, after, inductionHypothesis]

/-- Every operation is answered once. -/
theorem length_answers
    (state : State)
    (history : List Op) :
    (machine.answers state history).length = history.length := by
  induction history generalizing state with
  | nil =>
      rfl
  | cons op rest inductionHypothesis =>
      simp [answers, inductionHypothesis]

/-- What every operation keeps holds after every history. -/
theorem after_invariant
    (property : State → Prop)
    (kept :
      ∀ op state,
        property state →
        property (machine.perform op state).2)
    (state : State)
    (history : List Op)
    (holds : property state) :
    property (machine.after state history) := by
  induction history generalizing state with
  | nil =>
      exact holds
  | cons op rest inductionHypothesis =>
      exact inductionHypothesis _ (kept op state holds)

/-- The state after one history and another. -/
theorem after_append
    (state : State)
    (before later : List Op) :
    machine.after state (before ++ later) =
      machine.after (machine.after state before) later := by
  induction before generalizing state with
  | nil =>
      rfl
  | cons op rest inductionHypothesis =>
      exact inductionHypothesis _

/-- Somewhere in a history an operation has been given this answer. -/
def Answered
    (start : State)
    (history : List Op)
    (op : Op)
    (answer : Answer) : Prop :=
  ∃ before later,
    history = before ++ op :: later ∧
      (machine.perform op (machine.after start before)).1 = answer

/-- In an empty history nothing has been answered. -/
theorem not_answered_nil
    (start : State)
    (op : Op)
    (answer : Answer) :
    ¬ machine.Answered start [] op answer := by
  rintro ⟨before, later, split, _⟩
  simp at split

/-- An answer in a longer history is an old one or the last one. -/
theorem answered_snoc
    {start : State}
    {history : List Op}
    {last op : Op}
    {answer : Answer} :
    machine.Answered start (history ++ [last]) op answer ↔
      machine.Answered start history op answer ∨
        op = last ∧
          (machine.perform last (machine.after start history)).1 =
            answer := by
  constructor
  · rintro ⟨before, later, split, answered⟩
    induction later using List.reverseRecOn with
    | nil =>
        obtain ⟨rfl, same⟩ := List.append_inj' split rfl
        obtain rfl := List.singleton_inj.mp same
        exact Or.inr ⟨rfl, answered⟩
    | append_singleton later final _ =>
        rw [← List.cons_append, ← List.append_assoc] at split
        obtain ⟨rfl, _⟩ := List.append_inj' split rfl
        exact Or.inl ⟨before, later, rfl, answered⟩
  · rintro (⟨before, later, rfl, answered⟩ | ⟨rfl, answered⟩)
    · exact ⟨before, later ++ [last], by simp, answered⟩
    · exact ⟨history, [], rfl, answered⟩

/-- An operation that has been answered is in the history. -/
theorem Answered.mem
    {machine : Machine State Op Answer}
    {start : State}
    {history : List Op}
    {op : Op}
    {answer : Answer}
    (answered : machine.Answered start history op answer) :
    op ∈ history := by
  obtain ⟨before, later, rfl, _⟩ := answered
  simp

/-- An operation that changes nothing can be removed, with its answer. -/
theorem answers_remove
    (state : State)
    (before later : List Op)
    (op : Op)
    (unchanged :
      (machine.perform op (machine.after state before)).2 =
        machine.after state before) :
    machine.answers state (before ++ later) =
      (machine.answers state (before ++ op :: later)).eraseIdx
        before.length := by
  have position :
      before.length = (machine.answers state before).length :=
    (machine.length_answers state before).symm
  simp only [answers_append, answers, unchanged]
  rw [List.eraseIdx_append_of_length_le (Nat.le_of_eq position.symm),
    position, Nat.sub_self]
  rfl

end Machine

end SThread.Library
