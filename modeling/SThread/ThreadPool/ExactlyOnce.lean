import SThread.ThreadPool.Ledger
import SThread.ThreadPool.Places

namespace SThread.ThreadPool

open SThread.Library
open SThread.Scheduler

/-!
# Every accepted task is called exactly once

A task is accepted when `task_queue_push` links its node.  No task is called
twice or without having been accepted, and when the join loop of
`thread_pool_destroy` is over all accepted tasks have been called.
-/

/-- The task carries the function and the argument of its submission. -/
def History.Submitted
    {Func Arg : Type}
    (history : History Func Arg)
    (task : Func × Job Arg) : Prop :=
  history.submissions[taskId task]? = some (task.1, task.2.arg)

/-- Later submissions do not change earlier ones. -/
theorem History.Submitted.mono
    {Func Arg : Type}
    {before after : History Func Arg}
    {task : Func × Job Arg}
    (submitted : before.Submitted task)
    (grows : before.submissions <+: after.submissions) :
    after.Submitted task := by
  obtain ⟨more, grown⟩ := grows
  have inRange := (List.getElem?_eq_some_iff.mp submitted).1
  unfold History.Submitted
  rw [← grown, List.getElem?_append_left inRange]
  exact submitted

/-- What a step links is the task of the submission the thread works on. -/
theorem QueueMove.linked_from
    {Func Arg Local : Type}
    {pc : Pc Func Arg Local}
    {call call' : Scheduler.Pc Func (Job Arg)}
    {linked removed : List (Func × Job Arg)}
    (move : QueueMove pc call call' linked removed)
    {task : Func × Job Arg}
    (isLinked : task ∈ linked) :
    ∃ submission caller,
      pc = .submitting .pushing submission caller ∧
        task = submission.task := by
  cases move with
  | push submission caller call call' unlinked unheld unheld' =>
      split at isLinked
      · exact ⟨submission, caller, rfl, List.mem_singleton.mp isLinked⟩
      · simp at isLinked
  | pop call call' removed held
  | shutdown =>
      simp at isLinked

/-- Past the join loop of `thread_pool_destroy`. -/
def DestroyStage.Joined
    (numThreads : Nat) : DestroyStage → Prop
  | .start => False
  | .ignored => False
  | .shuttingDown => False
  | .joining next => ¬ next < numThreads
  | _ => True

/-- Submissions are only ever added. -/
theorem LocalStep.submissions_grow
    {Owner Func Arg Local : Type}
    {behaviour : TaskBehaviour Func Arg Local}
    {thread : Owner}
    {numThreads : Nat}
    {shared shared' : Shared Owner Func Arg}
    {place place' : Place Func Arg Local}
    (step :
      LocalStep behaviour thread numThreads
        shared place shared' place') :
    shared.history.submissions <+: shared'.history.submissions := by
  cases step with
  | worker step =>
      cases step <;> exact List.prefix_refl _
  | submit step =>
      cases step with
      | call call caller func arg priority may =>
          exact List.prefix_append _ _
      | _ =>
          exact List.prefix_refl _
  | wait step =>
      cases step <;> exact List.prefix_refl _
  | destroy step =>
      cases step <;> exact List.prefix_refl _

/-- The submission a thread works on is in the history. -/
def Pc.Genuine
    {Func Arg Local : Type}
    (history : History Func Arg) :
    Pc Func Arg Local → Prop
  | .submitting _ submission _ => history.Submitted submission.task
  | _ => True

/-- Later submissions do not disturb a thread. -/
theorem Pc.Genuine.mono
    {Func Arg Local : Type}
    {before after : History Func Arg}
    {pc : Pc Func Arg Local}
    (genuine : pc.Genuine before)
    (grows : before.submissions <+: after.submissions) :
    pc.Genuine after := by
  cases pc with
  | submitting stage submission caller =>
      exact History.Submitted.mono genuine grows
  | _ =>
      trivial

section

variable
    {config : Config}
    {Client Func Arg Local : Type}
    [DecidableEq Client]
    {behaviour : TaskBehaviour Func Arg Local}
    {state later : State config Client Func Arg Local}

omit [DecidableEq Client] in
/-- Every call of `thread_pool_submit` works on a submission of its own. -/
theorem genuine_kept :
    ThreadInvariant behaviour
      (fun (_ : Thread config.numThreads Client)
          (shared : Shared (Thread config.numThreads Client) Func Arg)
          (pc : Pc Func Arg Local) =>
        pc.Genuine shared.history) := by
  refine .of_submit ?_ ?_ ?_
  · intro thread shared pc outside
    cases pc <;> first | contradiction | trivial
  · intro thread other shared place shared' place' pc _ step _ genuine
    exact genuine.mono step.submissions_grow
  · intro thread shared place shared' place' step genuine
    have submits :
        LocalStep behaviour thread config.numThreads
          shared place shared' place' :=
      .submit step
    have kept := genuine.mono submits.submissions_grow
    cases step with
    | callNull call caller arg priority may
    | failed call submission caller ret failed
    | acknowledged call submission caller =>
        cases caller <;> trivial
    | call call caller func arg priority may =>
        simp [Pc.Genuine, History.Submitted, Submission.task, taskId]
    | _ =>
        exact kept

/-- What a step links was submitted. -/
theorem Step.linked_submitted
    {thread : Thread config.numThreads Client}
    (step : Step behaviour state thread later)
    (core : Core state)
    (genuine : (state.pc thread).Genuine state.shared.history)
    (before :
      ∀ task ∈ state.queue.linked,
        state.shared.history.Submitted task)
    (task : Func × Job Arg)
    (linked : task ∈ later.queue.linked) :
    later.shared.history.Submitted task := by
  cases step with
  | queue step =>
      obtain ⟨channel, nodes, refines⟩ := core.refines
      obtain ⟨new, removed, linkedIs, removedIs, effect⟩ :=
        step.effect refines
      have move := (core.agrees thread).queueMove step.inside effect
      rw [linkedIs, List.mem_append] at linked
      rcases linked with old | isNew
      · exact before task old
      · obtain ⟨submission, caller, pushing, rfl⟩ := move.linked_from isNew
        rw [pushing] at genuine
        exact genuine
  | own step =>
      exact (before task linked).mono step.submissions_grow
  | broadcast here
  | join next here inRange ended
  | destroyQueue heap here frees
  | destroyQueueFault here fails =>
      exact before task linked

/-- Every accepted task carries the function and argument of its submission. -/
theorem reachable_linked_submitted
    (reachable :
      (system config Client behaviour).Reachable state) :
    ∀ task ∈ state.queue.linked,
      state.shared.history.Submitted task := by
  refine System.Reachable.invariant
    (fun state =>
      ∀ task ∈ state.queue.linked,
        state.shared.history.Submitted task)
    ?_ ?_ reachable
  · intro first initial task linked
    subst initial
    exact absurd linked List.not_mem_nil
  · intro before after beforeReachable submitted next
    cases next with
    | step thread allocated step =>
        exact step.linked_submitted (reachable_core beforeReachable)
          (genuine_kept.reachable beforeReachable thread) submitted
    | queueSpurious thread allocated wakes
    | waitSpurious thread completed since caller allocated here =>
        exact submitted

/-- Accepted and refused submissions are all different. -/
theorem reachable_decided_nodup
    [Fintype Client]
    (reachable :
      (system config Client behaviour).Reachable state) :
    (taskIds state.queue.linked +
      (↑state.shared.history.refused : Multiset Nat)).Nodup := by
  have balanced := submissionAccount_sound.balanced reachable
  have allDifferent :=
    Multiset.nodup_range state.shared.history.submissions.length
  simp only [submissionAccount, State.record, Shared.record] at balanced
  rw [balanced] at allDifferent
  exact (Multiset.nodup_add.mp allDifferent).1

/-- Every call was removed from the queue before. -/
theorem reachable_called_le_removed
    [Fintype Client]
    (reachable :
      (system config Client behaviour).Reachable state) :
    (↑state.shared.history.called : Multiset (Func × Job Arg)) ≤
      ↑state.queue.removed := by
  have balanced := callingAccount_sound.balanced reachable
  simp only [callingAccount, State.record, Shared.record] at balanced
  rw [balanced]
  exact Multiset.le_add_right _ _

/-- Every call is of an accepted task. -/
theorem reachable_called_le_linked
    [Fintype Client]
    (reachable :
      (system config Client behaviour).Reachable state) :
    (↑state.shared.history.called : Multiset (Func × Job Arg)) ≤
      ↑state.queue.linked :=
  (reachable_called_le_removed reachable).trans
    (reachable_core reachable).removed_first.sublist.subperm

/-- No task is accepted twice. -/
theorem reachable_linked_nodup
    [Fintype Client]
    (reachable :
      (system config Client behaviour).Reachable state) :
    (taskIds state.queue.linked).Nodup :=
  (Multiset.nodup_add.mp (reachable_decided_nodup reachable)).1

/-- No task is called twice. -/
theorem reachable_called_nodup
    [Fintype Client]
    (reachable :
      (system config Client behaviour).Reachable state) :
    (taskIds state.shared.history.called).Nodup :=
  Multiset.nodup_of_le
    (Multiset.map_le_map (reachable_called_le_linked reachable))
    (reachable_linked_nodup reachable)

/-- Past the join loop all workers have left their loops. -/
theorem Core.exited_of_joined
    (core : Core state)
    {stage : DestroyStage}
    (here : state.pc .destroyer = .destroying stage)
    (joined : stage.Joined config.numThreads)
    (index : Fin config.numThreads) :
    state.pc (.worker index) = .exited := by
  have phase := core.phase stage here
  cases stage with
  | start
  | ignored
  | shuttingDown =>
      exact joined.elim
  | joining next =>
      exact phase.2.2 index
        (index.isLt.trans_le (Nat.le_of_not_lt joined))
  | _ =>
      exact phase.2.2 index

/-- Past the join loop nobody holds a task that was not called. -/
theorem Core.uncalled_of_exited
    [Fintype Client]
    (core : Core state)
    (exited :
      ∀ index : Fin config.numThreads,
        state.pc (.worker index) = .exited) :
    tally Place.uncalled state.place = 0 := by
  refine Finset.sum_eq_zero ?_
  intro thread _
  have role := core.role thread
  cases thread with
  | worker index =>
      simp [State.place, exited index, Place.uncalled]
  | client name =>
      cases here : state.pc (.client name) <;>
        simp [here, Pc.role, Thread.role] at role <;>
        simp [State.place, here, Place.uncalled]
  | destroyer =>
      obtain ⟨stage, here⟩ := core.stage
      simp [State.place, here, Place.uncalled]

/-- What becomes of the tasks handed to `thread_pool_submit`. -/
structure ExactlyOnce
    (state : State config Client Func Arg Local) : Prop where
  accepted :
    ∀ task ∈ state.queue.linked,
      state.shared.history.Submitted task
  acceptedOnce :
    (state.queue.linked.map taskId).Nodup
  calledAccepted :
    ∀ task ∈ state.shared.history.called,
      task ∈ state.queue.linked
  calledOnce :
    (state.shared.history.called.map taskId).Nodup
  refusedUncalled :
    ∀ id ∈ state.shared.history.refused,
      id ∉ state.shared.history.called.map taskId
  notDiscarded :
    ∀ index removal,
      state.pc (.worker index) = .popping →
      state.queue.pc (.worker index) = .popDone .pop (some removal) →
      state.shared.poolState ≠ .terminated
  drained :
    ∀ stage : DestroyStage,
      state.pc .destroyer = .destroying stage →
      stage.Joined config.numThreads →
      state.queue.queue.count = 0 ∧
        state.shared.history.called.Perm state.queue.linked

/-- Past the join loop every accepted task has been called. -/
theorem reachable_drained
    [Fintype Client]
    (reachable :
      (system config Client behaviour).Reachable state)
    {stage : DestroyStage}
    (here : state.pc .destroyer = .destroying stage)
    (joined : stage.Joined config.numThreads) :
    state.queue.queue.count = 0 ∧
      state.shared.history.called.Perm state.queue.linked := by
  have core := reachable_core reachable
  have exited := core.exited_of_joined here joined
  have empty := (core.drained_of_exited exited).2
  refine ⟨empty, ?_⟩
  have balanced := callingAccount_sound.balanced reachable
  simp only [callingAccount, core.uncalled_of_exited exited, add_zero,
    State.record, Shared.record] at balanced
  rw [← core.removed_of_empty empty]
  exact (Multiset.coe_eq_coe.mp balanced).symm

/-- Every accepted task is called at most once, and once after the join loop. -/
theorem reachable_exactlyOnce
    [Fintype Client]
    (reachable :
      (system config Client behaviour).Reachable state) :
    ExactlyOnce state := by
  have core := reachable_core reachable
  have called := reachable_called_le_linked reachable
  have decided := Multiset.nodup_add.mp (reachable_decided_nodup reachable)
  refine
    { accepted := reachable_linked_submitted reachable
      acceptedOnce := reachable_linked_nodup reachable
      calledAccepted := ?_
      calledOnce := reachable_called_nodup reachable
      refusedUncalled := ?_
      notDiscarded := ?_
      drained := fun stage => reachable_drained reachable }
  · intro task isCalled
    exact Multiset.subset_of_le called isCalled
  · intro id refused isCalled
    exact Multiset.disjoint_left.mp decided.2.2
      (Multiset.subset_of_le (Multiset.map_le_map called) isCalled) refused
  · intro index removal popping _
    exact core.alive _ popping

end

/-- A client's task runs, then the pool is shut down and the worker joined. -/
theorem reachable_exactlyOnce_joined :
    ∃ state : State smallConfig Unit Nat Nat Unit,
      (system smallConfig Unit idleTasks).Reachable state ∧
        state.pc .destroyer = .destroying (.joining 1) ∧
        state.shared.history.called = [(7, ⟨0, 8⟩)] ∧
        ExactlyOnce state := by
  have start : (system smallConfig Unit idleTasks).Reachable _ :=
    .start rfl
  -- The client links its task and counts it.
  have called := start.step
    (.step (.client ()) (by decide)
      (.own (.submit (.call _ .client 7 8 .normal trivial))))
  have checked := called.step
    (.step (.client ()) (by decide)
      (.own (.submit (.checkPassed _ .client rfl))))
  have allocated := checked.step
    (.step (.client ()) (by decide)
      (.queue (.alloc 7 ⟨0, 8⟩ .normal 0 0 rfl rfl)))
  have linked := allocated.step
    (.step (.client ()) (by decide)
      (.queue (.pushLinked 7 ⟨0, 8⟩ 0 _ _ ∅ (.enter rfl)
        ⟨by simp, by decide⟩)))
  have counted := linked.step
    (.step (.client ()) (by decide)
      (.own (.submit (.counted _ .client))))
  -- The destroyer shuts the queue down.
  have begun := counted.step
    (.step .destroyer (by decide) (.own (.destroy (.begin rfl))))
  have closed := begun.step
    (.step .destroyer (by decide) (.queue (.shutdown rfl)))
  have joining := closed.step
    (.step .destroyer (by decide) (.own (.destroy .shutDown)))
  -- The worker still takes the task and runs it.
  have popping := joining.step
    (.step (.worker 0) (by decide) (.own (.worker .pop)))
  have unlinked := popping.step
    (.step (.worker 0) (by decide)
      (.queue (.popUnlinked .pop 0 _ _ ∅ (.enter rfl) rfl
        ⟨by simp, by decide⟩)))
  have taken := unlinked.step
    (.step (.worker 0) (by decide)
      (.queue (.popTaken .pop 0 _ _ rfl rfl)))
  have activating := taken.step
    (.step (.worker 0) (by decide)
      (.own (.worker (.taken _ (by decide)))))
  have entering := activating.step
    (.step (.worker 0) (by decide) (.own (.worker (.activate _ _))))
  have running := entering.step
    (.step (.worker 0) (by decide) (.own (.worker (.enter _ _))))
  have finished := running.step
    (.step (.worker 0) (by decide)
      (.own (.worker (.finish _ _ _ rfl))))
  have deactivated := finished.step
    (.step (.worker 0) (by decide) (.own (.worker (.deactivate _ _))))
  have completed := deactivated.step
    (.step (.worker 0) (by decide) (.own (.worker (.complete _ _))))
  have locked := completed.step
    (.step (.worker 0) (by decide) (.own (.worker (.lock _ rfl))))
  have broadcast := locked.step
    (.step (.worker 0) (by decide) (.broadcast rfl))
  have unlocked := broadcast.step
    (.step (.worker 0) (by decide) (.own (.worker (.unlock _))))
  -- It finds the queue empty and leaves its loop.
  have again := unlocked.step
    (.step (.worker 0) (by decide) (.own (.worker .pop)))
  have empty := again.step
    (.step (.worker 0) (by decide) (.queue (.popEmpty .pop (.enter rfl))))
  have exited := empty.step
    (.step (.worker 0) (by decide) (.own (.worker .popFailed)))
  have joined := exited.step
    (.step .destroyer (by decide) (.join 0 rfl (by decide) rfl))
  exact ⟨_, joined, rfl, rfl, reachable_exactlyOnce joined⟩

end SThread.ThreadPool
