import SThread.Api.Threads

namespace SThread.Api

open SThread.Library

/-!
# The life cycle of a thread handle

A successful detach and every join free the handle.  The flag that a detach
sets is gone with it, and so is the handle of a thread that could not be joined.

The histories are those in which a caller uses only handles that it has been
given, and not after it has joined them.
-/

section

variable
    {Thread : Type}

/-- The heap after a history. -/
abbrev heapAfter (history : List (ThreadCall Thread)) :
    HandleHeap Thread :=
  threadMachine.after [] history

/-- Some call of the history has been answered so. -/
abbrev Answers
    (history : List (ThreadCall Thread))
    (call : ThreadCall Thread)
    (answer : ThreadAnswer) : Prop :=
  threadMachine.Answered [] history call answer

/-- The answer to one more call. -/
abbrev answerTo
    (history : List (ThreadCall Thread))
    (call : ThreadCall Thread) : ThreadAnswer :=
  (threadMachine.perform call (heapAfter history)).1

/-- The handle has been returned by a create or a self. -/
def HandedOut
    (history : List (ThreadCall Thread))
    (pointer : Nat) : Prop :=
  ∃ call answer,
    Answers history call answer ∧ answer.handedOut = some pointer

/-- A join on the handle has succeeded. -/
def Joined
    (history : List (ThreadCall Thread))
    (pointer : Nat) : Prop :=
  ∃ ret, Answers history (.join (some pointer) ret) (.returns .success none)

/-- A detach on the handle has succeeded. -/
def Detached
    (history : List (ThreadCall Thread))
    (pointer : Nat) : Prop :=
  ∃ ret,
    Answers history (.detach (some pointer) ret) (.returns .success none)

/-- Handles are used when they have been handed out, until they are joined. -/
def Disciplined (history : List (ThreadCall Thread)) : Prop :=
  ∀ before call later pointer,
    history = before ++ call :: later →
    call.pointer = some pointer →
    HandedOut before pointer ∧ ¬ Joined before pointer

/-- What a caller may expect of the thread handles. -/
structure LifeCycle (history : List (ThreadCall Thread)) : Prop where
  noFault :
    ∀ call, ¬ Answers history call .fault
  detached :
    ∀ before pointer ret later,
      history = before ++ .join (some pointer) ret :: later →
      Detached before pointer →
      answerTo before (.join (some pointer) ret) =
          .returns .invalid none ∧
        ∃ handle,
          (heapAfter before).read pointer = some handle ∧
            handle.detached = true
  failed :
    ∀ before call later pointer result,
      history = before ++ call :: later →
      call.pointer = some pointer →
      answerTo before call = .returns result none →
      result ≠ .success →
      ∃ handle,
        (heapAfter before).read pointer = some handle ∧
          (heapAfter (before ++ [call])).read pointer = some handle

/-- No join fails in pthread, and no detached handle is used. -/
structure Careful (history : List (ThreadCall Thread)) : Prop where
  joins :
    ∀ pointer ret, .join (some pointer) ret ∈ history → ret = 0
  detaches :
    ∀ before pointer later call,
      history = before ++ .detach (some pointer) 0 :: later →
      call ∈ later →
      call.pointer ≠ some pointer

/-- A call of the history that has freed the handle. -/
def Spent
    (history : List (ThreadCall Thread))
    (pointer : Nat) : Prop :=
  Joined history pointer ∨
    (∃ ret, ret ≠ 0 ∧ .join (some pointer) ret ∈ history) ∨
      .detach (some pointer) 0 ∈ history

variable
    {history : List (ThreadCall Thread)}
    {last : ThreadCall Thread}
    {pointer : Nat}

/-- One more call on the heap. -/
theorem heapAfter_snoc
    (history : List (ThreadCall Thread))
    (last : ThreadCall Thread) :
    heapAfter (history ++ [last]) =
      (threadMachine.perform last (heapAfter history)).2 :=
  threadMachine.after_append [] history [last]

/-- The last call of a history has one of the effects of a call. -/
theorem effect_snoc
    (history : List (ThreadCall Thread))
    (last : ThreadCall Thread) :
    HeapEffect (heapAfter history) last (answerTo history last)
      (heapAfter (history ++ [last])) := by
  rw [heapAfter_snoc]
  exact perform_effect last (heapAfter history)

/-- A handle stays spent. -/
theorem Spent.snoc
    (spent : Spent history pointer)
    (last : ThreadCall Thread) :
    Spent (history ++ [last]) pointer := by
  rcases spent with ⟨ret, joined⟩ | ⟨ret, fails, dropped⟩ | detached
  · exact Or.inl ⟨ret, threadMachine.answered_snoc.mpr (Or.inl joined)⟩
  · exact Or.inr (Or.inl
      ⟨ret, fails, List.mem_append_left _ dropped⟩)
  · exact Or.inr (Or.inr (List.mem_append_left _ detached))

/-- A handle has been handed out before the last call or by it. -/
theorem handedOut_snoc :
    HandedOut (history ++ [last]) pointer ↔
      HandedOut history pointer ∨
        (answerTo history last).handedOut = some pointer := by
  constructor
  · rintro ⟨call, answer, answered, out⟩
    rcases threadMachine.answered_snoc.mp answered with
      before | ⟨rfl, rfl⟩
    · exact Or.inl ⟨call, answer, before, out⟩
    · exact Or.inr out
  · rintro (⟨call, answer, before, out⟩ | out)
    · exact ⟨call, answer,
        threadMachine.answered_snoc.mpr (Or.inl before), out⟩
    · exact ⟨last, _,
        threadMachine.answered_snoc.mpr (Or.inr ⟨rfl, rfl⟩), out⟩

/-- What holds of the heap after any history. -/
structure HeapInvariant (history : List (ThreadCall Thread)) : Prop where
  unflagged :
    ∀ pointer handle,
      (heapAfter history).read pointer = some handle →
      handle.detached = false
  inside :
    ∀ pointer,
      HandedOut history pointer →
      pointer < (heapAfter history).length
  spent :
    ∀ pointer,
      HandedOut history pointer →
      (heapAfter history).read pointer = none →
      Spent history pointer

/-- A call flags no handle that is left allocated. -/
theorem HeapEffect.unflagged
    {heap later : HandleHeap Thread}
    {call : ThreadCall Thread}
    {answer : ThreadAnswer}
    (effect : HeapEffect heap call answer later)
    (unflagged :
      ∀ pointer handle,
        heap.read pointer = some handle → handle.detached = false)
    (pointer : Nat)
    (handle : SthreadHandle Thread)
    (here : later.read pointer = some handle) :
    handle.detached = false := by
  by_cases inside : pointer < heap.length
  · by_cases mine : call.pointer = some pointer
    · cases effect with
      | refused _ _ _
      | noPointer _
      | fault _ _ _ _
      | flagged _ _ _ _ _
      | kept _ _ _ _ _ =>
          exact unflagged pointer handle here
      | lost _ _ null
      | allocated _ _ _ null _ _ =>
          rw [null] at mine
          contradiction
      | joined _ _ _
      | dropped _ _ _ _ _
      | detached _ _ _ =>
          obtain rfl := Option.some.inj mine
          rw [HandleHeap.read_free_self] at here
          contradiction
    · rw [effect.frame inside mine] at here
      exact unflagged pointer handle here
  · have known := HandleHeap.read_eq_some.mp here
    obtain ⟨within, block⟩ := List.getElem?_eq_some_iff.mp known
    cases effect with
    | allocated _ _ fresh _ _ flag =>
        rw [HandleHeap.length_malloc] at within
        have last : pointer = heap.length := by omega
        subst last
        have same : fresh = handle := by
          simpa [HandleHeap.malloc] using block
        rw [← same]
        exact flag
    | lost _ _ _ =>
        simp only [HandleHeap.length_free, HandleHeap.length_malloc]
          at within
        have last : pointer = heap.length := by omega
        rw [last, HandleHeap.read_free_self] at here
        contradiction
    | _ =>
        exact absurd (by simpa using within) inside

/-- Nothing has been allocated or handed out in the beginning. -/
theorem HeapInvariant.nil :
    HeapInvariant ([] : List (ThreadCall Thread)) := by
  constructor
  · intro pointer handle here
    cases here
  · rintro pointer ⟨call, answer, answered, _⟩
    exact absurd answered (threadMachine.not_answered_nil [] call answer)
  · rintro pointer ⟨call, answer, answered, _⟩
    exact absurd answered (threadMachine.not_answered_nil [] call answer)

/-- A block that a call leaves unreadable has been spent, if it was handed out. -/
theorem HeapInvariant.spent_snoc
    (invariant : HeapInvariant history)
    (out : HandedOut (history ++ [last]) pointer)
    (gone : (heapAfter (history ++ [last])).read pointer = none) :
    Spent (history ++ [last]) pointer := by
  have effect := effect_snoc history last
  rcases handedOut_snoc.mp out with before | now
  · have inside := invariant.inside pointer before
    by_cases mine : last.pointer = some pointer
    · cases here : (heapAfter history).read pointer with
      | none =>
          exact (invariant.spent pointer before here).snoc last
      | some handle =>
          rcases effect.frees mine here gone with
            ⟨ret, rfl, succeeds⟩ | ⟨ret, fails, rfl⟩ | rfl
          · exact Or.inl
              ⟨ret, threadMachine.answered_snoc.mpr (Or.inr ⟨rfl, succeeds⟩)⟩
          · exact Or.inr (Or.inl ⟨ret, fails, List.mem_concat_self⟩)
          · exact Or.inr (Or.inr List.mem_concat_self)
    · rw [effect.frame inside mine] at gone
      exact (invariant.spent pointer before gone).snoc last
  · obtain ⟨_, handle, here⟩ := effect.handedOut now
    rw [gone] at here
    contradiction

/-- Every call keeps the invariant. -/
theorem HeapInvariant.snoc
    (invariant : HeapInvariant history)
    (last : ThreadCall Thread) :
    HeapInvariant (history ++ [last]) := by
  have effect := effect_snoc history last
  constructor
  · exact effect.unflagged invariant.unflagged
  · intro pointer out
    rcases handedOut_snoc.mp out with before | now
    · exact Nat.lt_of_lt_of_le (invariant.inside pointer before)
        effect.length_le
    · obtain ⟨_, handle, here⟩ := effect.handedOut now
      have block := HandleHeap.read_eq_some.mp here
      exact (List.getElem?_eq_some_iff.mp block).1
  · intro pointer
    exact invariant.spent_snoc

/-- The invariant holds after every history. -/
theorem heapInvariant (history : List (ThreadCall Thread)) :
    HeapInvariant history := by
  induction history using List.reverseRecOn with
  | nil =>
      exact .nil
  | append_singleton history last inductionHypothesis =>
      exact inductionHypothesis.snoc last

/-- A handle that is gone stays gone. -/
theorem unreadable_append
    {before : List (ThreadCall Thread)}
    (inside : pointer < (heapAfter before).length)
    (gone : (heapAfter before).read pointer = none)
    (later : List (ThreadCall Thread)) :
    (heapAfter (before ++ later)).read pointer = none := by
  have kept :=
    threadMachine.after_invariant
      (fun heap => pointer < heap.length ∧ heap.read pointer = none)
      (fun call heap holds =>
        ⟨Nat.lt_of_lt_of_le holds.1 (perform_effect call heap).length_le,
          (perform_effect call heap).unreadable holds.1 holds.2⟩)
      (heapAfter before) later ⟨inside, gone⟩
  rw [heapAfter, threadMachine.after_append]
  exact kept.2

section Careful

variable
    {before later : List (ThreadCall Thread)}
    {call : ThreadCall Thread}

/-- A handle that is used carefully is allocated and not flagged. -/
theorem Careful.readable
    (careful : Careful history)
    (disciplined : Disciplined history)
    (split : history = before ++ call :: later)
    (uses : call.pointer = some pointer) :
    ∃ handle,
      (heapAfter before).read pointer = some handle ∧
        handle.detached = false := by
  obtain ⟨out, unjoined⟩ := disciplined before call later pointer split uses
  have invariant := heapInvariant before
  cases here : (heapAfter before).read pointer with
  | some handle =>
      exact ⟨handle, rfl, invariant.unflagged pointer handle here⟩
  | none =>
      exfalso
      rcases invariant.spent pointer out here with
        joined | ⟨ret, fails, dropped⟩ | detached
      · exact unjoined joined
      · refine fails (careful.joins pointer ret ?_)
        rw [split]
        exact List.mem_append_left _ dropped
      · obtain ⟨first, between, rfl⟩ := List.append_of_mem detached
        refine careful.detaches first pointer (between ++ call :: later)
          call ?_ (by simp) uses
        rw [split]
        simp

/-- Careful callers see the life cycle that they may expect. -/
theorem Careful.lifeCycle
    (careful : Careful history)
    (disciplined : Disciplined history) :
    LifeCycle history := by
  constructor
  · rintro call ⟨before, later, split, faults⟩
    have effect := perform_effect call (heapAfter before)
    rw [heapAfter, faults] at effect
    obtain ⟨pointer, uses, unreadable⟩ := effect.unreadable_of_fault
    obtain ⟨handle, here, _⟩ := careful.readable disciplined split uses
    rw [heapAfter, unreadable] at here
    contradiction
  · rintro before pointer ret later split ⟨detachRet, first, rest, earlier,
      succeeds⟩
    exfalso
    have effect :=
      perform_effect (.detach (some pointer) detachRet) (heapAfter first)
    rw [heapAfter, succeeds] at effect
    obtain rfl := effect.detach_ret
    refine careful.detaches first pointer
      (rest ++ .join (some pointer) ret :: later)
      (.join (some pointer) ret) ?_ (by simp) rfl
    rw [split, earlier]
    simp
  · intro before call later pointer result split uses returns failed
    obtain ⟨handle, here, unflagged⟩ :=
      careful.readable disciplined split uses
    have effect := effect_snoc before call
    rw [returns] at effect
    rcases effect.failed uses failed with same | ⟨ret, fails, rfl⟩
    · exact ⟨handle, here, same.trans here⟩
    · refine absurd (careful.joins pointer ret ?_) fails
      rw [split]
      simp

/-- Without a fault, a handle that is used is allocated. -/
theorem LifeCycle.readable
    (lifeCycle : LifeCycle history)
    (split : history = before ++ call :: later)
    (uses : call.pointer = some pointer) :
    ∃ handle, (heapAfter before).read pointer = some handle := by
  cases here : (heapAfter before).read pointer with
  | some handle =>
      exact ⟨handle, rfl⟩
  | none =>
      exact absurd ⟨before, later, split, perform_unreadable uses here⟩
        (lifeCycle.noFault call)

/-- Callers that see the life cycle they expect have been careful. -/
theorem LifeCycle.careful
    (lifeCycle : LifeCycle history) :
    Careful history := by
  constructor
  · intro pointer ret member
    by_contra fails
    obtain ⟨before, later, split⟩ := List.append_of_mem member
    obtain ⟨handle, here⟩ := lifeCycle.readable split rfl
    have unflagged :=
      (heapInvariant before).unflagged pointer handle here
    have dropped := perform_join_failed here unflagged fails
    obtain ⟨_, _, kept⟩ :=
      lifeCycle.failed before _ later pointer .system split rfl
        (congrArg Prod.fst dropped) (by decide)
    rw [heapAfter_snoc, dropped, HandleHeap.read_free_self] at kept
    contradiction
  · intro before pointer later call split member uses
    obtain ⟨handle, here⟩ := lifeCycle.readable split rfl
    have detached := perform_detach_succeeded here
    obtain ⟨inside, _⟩ :=
      List.getElem?_eq_some_iff.mp (HandleHeap.read_eq_some.mp here)
    obtain ⟨between, rest, rfl⟩ := List.append_of_mem member
    have gone :
        (heapAfter (before ++ [.detach (some pointer) 0])).read pointer =
          none := by
      rw [heapAfter_snoc, detached, HandleHeap.read_free_self]
    have stillGone :=
      unreadable_append
        (by simpa [heapAfter_snoc, detached] using inside) gone between
    have split' :
        history =
          before ++ [.detach (some pointer) 0] ++ between ++
            call :: rest := by
      rw [split]
      simp
    obtain ⟨found, readable⟩ := lifeCycle.readable split' uses
    rw [stillGone] at readable
    contradiction

end Careful

/--
A history of well-used handles has the expected life cycle exactly when no join
fails in pthread and no handle is used after it has been detached.
-/
theorem lifeCycle_iff_careful
    (disciplined : Disciplined history) :
    LifeCycle history ↔ Careful history := by
  constructor
  · exact LifeCycle.careful
  · intro careful
    exact careful.lifeCycle disciplined

/-- Using no handle is well used. -/
theorem Disciplined.nil :
    Disciplined ([] : List (ThreadCall Thread)) := by
  intro before call later pointer split
  simp at split

/-- One more call of a history without a join. -/
theorem Disciplined.snoc
    (disciplined : Disciplined history)
    (last : ThreadCall Thread)
    (used :
      ∀ pointer,
        last.pointer = some pointer →
        HandedOut history pointer ∧ ¬ Joined history pointer) :
    Disciplined (history ++ [last]) := by
  intro before call later pointer split uses
  induction later using List.reverseRecOn with
  | nil =>
      obtain ⟨rfl, same⟩ := List.append_inj' split rfl
      obtain rfl := List.singleton_inj.mp same
      exact used pointer uses
  | append_singleton later final _ =>
      rw [← List.cons_append, ← List.append_assoc] at split
      obtain ⟨rfl, _⟩ := List.append_inj' split rfl
      exact disciplined before call later pointer rfl uses

end

/-- A handle that is created, and two calls on it of which the first is no join. -/
theorem disciplined_twice
    {first second : ThreadCall Nat}
    (firstUses : first.pointer = some 0)
    (secondUses : second.pointer = some 0)
    (unjoined :
      ¬ Joined [.create true true true 0 7, first] 0) :
    Disciplined [.create true true true 0 7, first, second] := by
  have created :
      HandedOut
        ([.create true true true 0 7] : List (ThreadCall Nat)) 0 :=
    ⟨_, _, ⟨[], [], rfl, rfl⟩, rfl⟩
  refine
    ((Disciplined.nil.snoc (.create true true true 0 7) ?_).snoc
      first ?_).snoc second ?_
  · intro pointer uses
    contradiction
  · intro pointer uses
    obtain rfl := Option.some.inj (firstUses.symm.trans uses)
    refine ⟨created, ?_⟩
    rintro ⟨ret, joined⟩
    have member := joined.mem
    simp at member
  · intro pointer uses
    obtain rfl := Option.some.inj (secondUses.symm.trans uses)
    exact ⟨handedOut_snoc.mpr (Or.inl created), unjoined⟩

/-- A detach that pthread refuses, and a join that it does not. -/
def retriedHistory : List (ThreadCall Nat) :=
  [.create true true true 0 7, .detach (some 0) 22, .join (some 0) 0]

/-- A join after a detach that has succeeded. -/
def staleHistory : List (ThreadCall Nat) :=
  [.create true true true 0 7, .detach (some 0) 0, .join (some 0) 0]

/-- A join that pthread refuses, and another attempt. -/
def lostHistory : List (ThreadCall Nat) :=
  [.create true true true 0 7, .join (some 0) 35, .join (some 0) 0]

/-- The refused detach loses nothing. -/
theorem lifeCycle_iff_careful_retried : LifeCycle retriedHistory := by
  refine (lifeCycle_iff_careful (disciplined_twice rfl rfl ?_)).mpr ?_
  · rintro ⟨ret, joined⟩
    have member := joined.mem
    simp at member
  · constructor
    · intro pointer ret member
      simp at member
      exact member.2
    · intro before pointer later call split
      have member :
          ThreadCall.detach (some pointer) 0 ∈ retriedHistory := by
        rw [retriedHistory, split]
        simp
      simp [retriedHistory] at member

/--
The join after the detach reads a freed handle, and so does the join after the
failed one.
-/
theorem exists_not_lifeCycle :
    Disciplined staleHistory ∧
      threadMachine.answers [] staleHistory =
        [.returns .success (some 0), .returns .success none, .fault] ∧
      ¬ LifeCycle staleHistory ∧
      Disciplined lostHistory ∧
      threadMachine.answers [] lostHistory =
        [.returns .success (some 0), .returns .system none, .fault] ∧
      ¬ LifeCycle lostHistory := by
  refine ⟨disciplined_twice rfl rfl ?_, by decide, ?_,
    disciplined_twice rfl rfl ?_, by decide, ?_⟩
  · rintro ⟨ret, joined⟩
    have member := joined.mem
    simp at member
  · intro lifeCycle
    exact lifeCycle.noFault (.join (some 0) 0)
      ⟨[.create true true true 0 7, .detach (some 0) 0], [], rfl,
        by decide⟩
  · rintro ⟨ret, joined⟩
    rcases threadMachine.answered_snoc.mp
      (show Answers ([.create true true true 0 7] ++
        [.join (some 0) 35]) _ _ from joined) with old | ⟨_, failed⟩
    · have member := old.mem
      simp at member
    · contradiction
  · intro lifeCycle
    exact lifeCycle.noFault (.join (some 0) 0)
      ⟨[.create true true true 0 7, .join (some 0) 35], [], rfl,
        by decide⟩

end SThread.Api
