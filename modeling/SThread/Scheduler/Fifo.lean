import SThread.Scheduler.Effect

namespace SThread.Scheduler

open SThread.Library

/-!
# A bounded FIFO under every interleaving

What a client of the queue can rely on in every reachable state, for any number
of threads and every capacity.
-/

/-- The thread is inside one call of `task_queue_push`. -/
def Pc.pushing
    {Func Arg : Type} :
    Pc Func Arg → Bool
  | .pushStart _ _ _ => true
  | .pushEnter _ _ _ => true
  | .pushWait _ _ _ _ => true
  | .pushFree _ => true
  | .pushDone _ => true
  | _ => false

section

variable
    {Thread Func Arg : Type}
    [DecidableEq Thread]

/-- The counter and the represented list are the same in both states. -/
def SameContents
    (state later : State Thread Func Arg) : Prop :=
  later.queue.count = state.queue.count ∧
    ∀ nodes contents,
      Represents state.heap state.queue nodes contents →
      Represents later.heap later.queue nodes contents

/-- A run during which `thread` does not leave its call of `task_queue_push`. -/
def WithinPush
    (thread : Thread)
    (first last : State Thread Func Arg) : Prop :=
  Relation.ReflTransGen
    (fun state later =>
      Next state later ∧ (later.pc thread).pushing = true)
    first last

/-- What every interleaving of the queue functions guarantees in one state. -/
structure IsBoundedFifo
    (capacity : Nat)
    (state : State Thread Func Arg) : Prop where
  order :
    ∃ nodes contents,
      Represents state.heap state.queue nodes contents ∧
        state.linked = state.removed ++ contents ∧
        state.queue.count = contents.length
  removal :
    ∀ thread kind removal,
      state.pc thread = .popDone kind (some removal) →
      state.linked[removal.index]? = some removal.task
  bounded :
    0 < capacity → state.queue.count ≤ capacity
  frozen :
    state.queue.shutdown = true →
      ∀ later,
        (system Thread Func Arg capacity).Run state later →
        later.linked = state.linked
  popFails :
    ∀ thread,
      state.pc thread = .popDone .pop none →
      state.queue.shutdown = true ∧ state.queue.count = 0
  pushFails :
    ∀ thread later last,
      (state.pc thread).pushing = true →
      Step state thread later →
      WithinPush thread later last →
      last.pc thread = .pushDone (-1) →
      SameContents state later
  noFault :
    ∀ thread, state.pc thread ≠ .fault

/-- Once set, the shutdown flag stays set and nothing is linked any more. -/
theorem Step.frozen
    {state later : State Thread Func Arg}
    {thread : Thread}
    (step : Step state thread later)
    (closed : state.queue.shutdown = true) :
    later.queue.shutdown = true ∧ later.linked = state.linked := by
  cases step with
  | pushLinked func arg node heap queue targets locked signals =>
      rw [locked.justified.1] at closed
      exact Bool.noConfusion closed
  | popUnlinked kind node record queue targets locked stored signals =>
      refine ⟨?_, rfl⟩
      exact (unlinkHead_settings locked.justified.2).2.1.trans closed
  | shutdown here =>
      exact ⟨rfl, rfl⟩
  | _ =>
      exact ⟨closed, rfl⟩

/-- Every step of the system keeps the shutdown flag and the history. -/
theorem Next.frozen
    {state later : State Thread Func Arg}
    (next : Next state later)
    (closed : state.queue.shutdown = true) :
    later.queue.shutdown = true ∧ later.linked = state.linked := by
  cases next with
  | step thread step =>
      exact step.frozen closed
  | _ =>
      exact ⟨closed, rfl⟩

/-- After shutdown no run links a node. -/
theorem run_frozen
    {capacity : Nat}
    {state later : State Thread Func Arg}
    (closed : state.queue.shutdown = true)
    (run : (system Thread Func Arg capacity).Run state later) :
    later.queue.shutdown = true ∧ later.linked = state.linked := by
  induction run with
  | refl =>
      exact ⟨closed, rfl⟩
  | tail _ step inductionHypothesis =>
      obtain ⟨stillClosed, sameLinked⟩ :=
        Next.frozen step inductionHypothesis.1
      exact ⟨stillClosed, sameLinked.trans inductionHypothesis.2⟩

/-- A queue that is shut down and empty stays so. -/
theorem Next.drained
    {state later : State Thread Func Arg}
    {channel : Channel (Func × Arg)}
    {nodes : List Addr}
    (next : Next state later)
    (refines : Refines state channel nodes)
    (drained : Drained state.queue) :
    Drained later.queue := by
  obtain ⟨closed, empty⟩ := drained
  obtain ⟨channel', nodes', operation, refines'⟩ := next.refines refines
  refine ⟨(next.frozen closed).1, ?_⟩
  have nothing : channel.contents = [] := by
    rw [← List.length_eq_zero_iff, refines.represents.contents_length]
    exact empty
  have stillNothing : channel'.contents = [] := by
    cases operation with
    | refl =>
        exact nothing
    | single step =>
        cases step with
        | link item opened room =>
            rw [refines.closed, closed] at opened
            exact Bool.noConfusion opened
        | remove item rest front =>
            rw [nothing] at front
            contradiction
        | close =>
            exact nothing
  rw [← refines'.represents.contents_length, stillNothing]
  rfl

omit [DecidableEq Thread] in
/-- Changing a cell outside the chain keeps the contents. -/
theorem sameContents_of_outside
    {state later : State Thread Func Arg}
    {node : Addr}
    (outside :
      ∀ nodes contents,
        Represents state.heap state.queue nodes contents →
        node ∉ nodes)
    (same : ∀ cell, cell ≠ node → later.heap cell = state.heap cell)
    (queue : later.queue = state.queue) :
    SameContents state later := by
  refine ⟨by rw [queue], ?_⟩
  intro nodes contents represents
  rw [queue]
  apply represents.congr
  intro cell member
  apply same
  rintro rfl
  exact outside nodes contents represents member

/-- A step that moves only its thread keeps the contents. -/
theorem sameContents_setPc
    (state : State Thread Func Arg)
    (thread : Thread)
    (pc : Pc Func Arg) :
    SameContents state (state.setPc thread pc) :=
  ⟨rfl, fun _ _ represents => represents⟩

/-- A push changes the contents only in the step after which it returns 0. -/
theorem Step.push_contents
    {state later : State Thread Func Arg}
    {channel : Channel (Func × Arg)}
    {nodes : List Addr}
    {thread : Thread}
    (step : Step state thread later)
    (refines : Refines state channel nodes)
    (pushing : (state.pc thread).pushing = true) :
    later.pc thread = .pushDone 0 ∨ SameContents state later := by
  cases step with
  | alloc func arg priority node submitTime here fresh =>
      refine Or.inr (sameContents_of_outside ?_
        (fun cell different => Function.update_of_ne different _ _)
        rfl)
      intro others contents represents member
      obtain ⟨record, stored⟩ := represents.allocated member
      rw [fresh] at stored
      contradiction
  | pushLinked func arg node heap queue targets locked signals =>
      refine Or.inl ?_
      have awake :
          (notEmpty Func Arg).asleep
              (Function.update state.pc thread (.pushDone 0) thread) =
            false := by
        rw [Function.update_self]
        rfl
      exact (CondVar.notify_of_awake signals awake).trans
        (Function.update_self _ _ _)
  | pushFreed node record here stored =>
      refine Or.inr (sameContents_of_outside ?_
        (fun cell different => Function.update_of_ne different _ _)
        rfl)
      intro others contents represents
      rw [represents.chain.functional refines.represents.chain]
      exact refines.ownership.apart thread node (by rw [here]; rfl)
  | popUnlinked kind node record queue targets locked stored signals =>
      generalize state.pc thread = pc at locked pushing
      cases locked <;> exact Bool.noConfusion pushing
  | popTaken kind node removal record here stored =>
      rw [here] at pushing
      exact Bool.noConfusion pushing
  | shutdown here =>
      rw [here] at pushing
      exact Bool.noConfusion pushing
  | _ =>
      exact Or.inr (sameContents_setPc state thread _)

/-- A push that is about to return keeps its result until it returns. -/
theorem Next.pushDone_stays
    {state later : State Thread Func Arg}
    {thread : Thread}
    {ret : Int}
    (next : Next state later)
    (here : state.pc thread = .pushDone ret) :
    later.pc thread = .pushDone ret ∨ later.pc thread = .idle := by
  have untouched :
      ∀ other pc,
        other ≠ thread →
        Function.update state.pc other pc thread = .pushDone ret :=
    fun other pc different =>
      (Function.update_of_ne (Ne.symm different) _ _).trans here
  cases next with
  | call other request idle =>
      refine Or.inl (untouched other _ ?_)
      rintro rfl
      rw [idle] at here
      contradiction
  | step other step =>
      refine Or.inl ?_
      have notActor : thread ≠ other := by
        rintro rfl
        have inside := step.inside.2
        rw [here] at inside
        exact Bool.noConfusion inside
      have stable :
          WakeStable (fun pc : Pc Func Arg => pc = .pushDone ret) :=
        ⟨by simp, by simp⟩
      rw [step.observe_other stable notActor]
      exact here
  | @spurious other pc wakes =>
      refine Or.inl (untouched other _ ?_)
      rintro rfl
      rw [here] at wakes
      contradiction
  | ret other returned =>
      by_cases actor : other = thread
      · subst actor
        exact Or.inr (Function.update_self _ _ _)
      · exact Or.inl (untouched other _ actor)

/-- A push that is about to return 0 returns 0. -/
theorem withinPush_returns_zero
    {first last : State Thread Func Arg}
    {thread : Thread}
    (done : first.pc thread = .pushDone 0)
    (run : WithinPush thread first last) :
    last.pc thread = .pushDone 0 := by
  induction run with
  | refl =>
      exact done
  | tail _ step inductionHypothesis =>
      obtain ⟨next, pushing⟩ := step
      rcases next.pushDone_stays inductionHypothesis with
        stays | returned
      · exact stays
      · rw [returned] at pushing
        exact Bool.noConfusion pushing

/-- The capacity never changes. -/
theorem reachable_capacity
    {capacity : Nat}
    {state : State Thread Func Arg}
    (reachable : (system Thread Func Arg capacity).Reachable state) :
    state.queue.capacity = capacity := by
  obtain ⟨channel, nodes, channelReachable, refines⟩ :=
    reachable_refines reachable
  have lawful := Channel.reachable_lawful channelReachable
  exact refines.lawful.capacity_eq.symm.trans lawful.capacity_eq

/-- What was linked, in order, is what was removed and then the contents. -/
theorem reachable_order
    {capacity : Nat}
    {state : State Thread Func Arg}
    (reachable : (system Thread Func Arg capacity).Reachable state) :
    ∃ nodes contents,
      Represents state.heap state.queue nodes contents ∧
        state.linked = state.removed ++ contents ∧
        state.queue.count = contents.length := by
  obtain ⟨channel, nodes, channelReachable, refines⟩ :=
    reachable_refines reachable
  have lawful := Channel.reachable_lawful channelReachable
  refine ⟨nodes, channel.contents, refines.represents, ?_,
    refines.represents.contents_length.symm⟩
  rw [← refines.linked, ← refines.removed, lawful.order]

/-- A bounded queue never holds more than its capacity. -/
theorem reachable_bounded
    {capacity : Nat}
    {state : State Thread Func Arg}
    (reachable : (system Thread Func Arg capacity).Reachable state)
    (positive : 0 < capacity) :
    state.queue.count ≤ capacity := by
  obtain ⟨channel, nodes, channelReachable, refines⟩ :=
    reachable_refines reachable
  rw [← refines.represents.contents_length]
  exact (Channel.reachable_lawful channelReachable).bounded positive

/-- Every reachable state of the queue is that of a bounded FIFO. -/
theorem reachable_isBoundedFifo
    {capacity : Nat}
    {state : State Thread Func Arg}
    (reachable : (system Thread Func Arg capacity).Reachable state) :
    IsBoundedFifo capacity state := by
  obtain ⟨channel, nodes, _, refines⟩ := reachable_refines reachable
  refine ⟨reachable_order reachable, ?_, reachable_bounded reachable,
    ?_, ?_, ?_, ?_⟩
  · intro thread kind removal here
    have supported := refines.supported thread
    rw [here] at supported
    exact supported
  · intro closed later run
    exact (run_frozen closed run).2
  · intro thread here
    have supported := refines.supported thread
    rw [here] at supported
    exact supported
  · intro thread later last pushing step run here
    rcases step.push_contents refines pushing with done | same
    · rw [withinPush_returns_zero done run] at here
      exact absurd (Pc.pushDone.inj here) (by decide)
    · exact same
  · intro thread here
    have supported := refines.supported thread
    rw [here] at supported
    exact supported

end

/-- A queue for one task that is full again after one thread has removed a task. -/
theorem reachable_isBoundedFifo_full :
    ∃ state : State (Fin 2) Nat Nat,
      (system (Fin 2) Nat Nat 1).Reachable state ∧
        state.queue.count = 1 ∧
        state.linked = [(7, 8), (7, 9)] ∧
        state.removed = [(7, 8)] ∧
        IsBoundedFifo 1 state := by
  have start : (system (Fin 2) Nat Nat 1).Reachable _ :=
    .start rfl
  have called := start.step
    (.call 0 (.push (some 7) 8 .normal) rfl)
  have allocated := called.step
    (.step 0 (.alloc 7 8 .normal 0 0 rfl rfl))
  have linked := allocated.step
    (.step 0 (.pushLinked 7 8 0 _ _ ∅ (.enter rfl)
      ⟨by simp, by decide⟩))
  have returned := linked.step (.ret 0 rfl)
  -- The second task is on its way when the first one is removed.
  have calledAgain := returned.step
    (.call 0 (.push (some 7) 9 .normal) rfl)
  have allocatedAgain := calledAgain.step
    (.step 0 (.alloc 7 9 .normal 1 0 rfl rfl))
  have popping := allocatedAgain.step (.call 1 (.pop .pop true) rfl)
  have unlinked := popping.step
    (.step 1 (.popUnlinked .pop 0 _ _ ∅ (.enter rfl) rfl
      ⟨by simp, by decide⟩))
  have linkedAgain := unlinked.step
    (.step 0 (.pushLinked 7 9 1 _ _ ∅ (.enter rfl)
      ⟨by simp, by decide⟩))
  exact ⟨_, linkedAgain, rfl, rfl, rfl,
    reachable_isBoundedFifo linkedAgain⟩

end SThread.Scheduler
