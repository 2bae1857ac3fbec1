import SThread.ThreadPool.Accounting
import SThread.ThreadPool.ExactlyOnce
import SThread.ThreadPool.Waiters

namespace SThread.ThreadPool

open SThread.Library
open SThread.Scheduler

/-!
# What a return of `thread_pool_wait` means

`thread_pool_submit` increments `submitted_tasks` after the task is visible to
the workers, so `completed_tasks` may count a task that `submitted_tasks` does
not count yet.  Such a completion can stand in for another task, and then
`thread_pool_wait` returns too early.  It returns on time whenever the
completions it has counted belong to submissions it has counted.
-/

/-- What a waiter knows of the submissions acknowledged before its call. -/
def Pc.WaitsFor
    {Func Arg Local : Type}
    (history : History Func Arg) :
    Pc Func Arg Local → Prop
  | .waiting (.testing completed submitted) since _ =>
      (∀ loaded, completed = some loaded →
        loaded ≤ history.completed.length) ∧
      (∀ loaded, submitted = some loaded →
        since ⊆ history.counted.take loaded) ∧
      since ⊆ history.counted
  | .waiting _ since _ =>
      since ⊆ history.counted
  | _ => True

/-- The two histories of increments only grow. -/
def History.Extends
    {Func Arg : Type}
    (after before : History Func Arg) : Prop :=
  before.counted <+: after.counted ∧
    before.completed <+: after.completed ∧
    before.finished <+: after.finished

/-- Longer histories do not disturb a waiter. -/
theorem Pc.WaitsFor.mono
    {Func Arg Local : Type}
    {before after : History Func Arg}
    {pc : Pc Func Arg Local}
    (waits : pc.WaitsFor before)
    (grows : after.Extends before) :
    pc.WaitsFor after := by
  obtain ⟨⟨moreCounted, counted⟩, completed, _⟩ := grows
  have all :
      ∀ {ids : List Nat}, ids ⊆ before.counted → ids ⊆ after.counted := by
    intro ids among id member
    rw [← counted]
    exact List.mem_append_left _ (among member)
  cases pc with
  | waiting stage since caller =>
      cases stage with
      | testing loadedCompleted loadedSubmitted =>
          refine ⟨?_, ?_, all waits.2.2⟩
          · intro loaded isLoaded
            exact (waits.1 loaded isLoaded).trans completed.length_le
          · intro loaded isLoaded id member
            have taken := waits.2.1 loaded isLoaded member
            rw [← counted, List.take_append]
            exact List.mem_append_left _ taken
      | _ =>
          exact all waits
  | _ =>
      trivial

/-- A step adds to the histories at most. -/
theorem LocalStep.extends
    {Owner Func Arg Local : Type}
    {behaviour : TaskBehaviour Func Arg Local}
    {thread : Owner}
    {numThreads : Nat}
    {shared shared' : Shared Owner Func Arg}
    {place place' : Place Func Arg Local}
    (step :
      LocalStep behaviour thread numThreads
        shared place shared' place') :
    shared'.history.Extends shared.history := by
  have same : shared.history.Extends shared.history :=
    ⟨List.prefix_refl _, List.prefix_refl _, List.prefix_refl _⟩
  cases step with
  | worker step =>
      cases step with
      | finish call task place acts =>
          exact ⟨List.prefix_refl _, List.prefix_refl _,
            List.prefix_append _ _⟩
      | complete call task =>
          exact ⟨List.prefix_refl _, List.prefix_append _ _,
            List.prefix_refl _⟩
      | _ =>
          exact same
  | submit step =>
      cases step with
      | counted submission caller =>
          exact ⟨List.prefix_append _ _, List.prefix_refl _,
            List.prefix_refl _⟩
      | _ =>
          exact same
  | wait step =>
      cases step <;> exact same
  | destroy step =>
      cases step <;> exact same

/-- Past its test a waiter knows that the tasks before its call have finished. -/
def Pc.Waited
    {Func Arg Local : Type}
    (history : History Func Arg) :
    Pc Func Arg Local → Prop
  | .waiting (.unlocking _ _) since _ => since ⊆ history.finished
  | .waiting .done since _ => since ⊆ history.finished
  | _ => True

/-- Longer histories do not disturb a thread past its test. -/
theorem Pc.Waited.mono
    {Func Arg Local : Type}
    {before after : History Func Arg}
    {pc : Pc Func Arg Local}
    (waited : pc.Waited before)
    (grows : after.Extends before) :
    pc.Waited after := by
  cases pc with
  | waiting stage since caller =>
      cases stage with
      | unlocking completed submitted
      | done =>
          exact List.Subset.trans waited grows.2.2.subset
      | _ =>
          trivial
  | _ =>
      trivial

/-- A thread gets past its test in one way only. -/
theorem LocalStep.waited
    {Owner Func Arg Local : Type}
    {behaviour : TaskBehaviour Func Arg Local}
    {thread : Owner}
    {numThreads : Nat}
    {shared shared' : Shared Owner Func Arg}
    {place place' : Place Func Arg Local}
    (step :
      LocalStep behaviour thread numThreads
        shared place shared' place')
    (before : place.pc.Waited shared.history)
    (passing :
      ∀ completed submitted since caller,
        place.pc =
          .waiting (.testing (some completed) (some submitted))
            since caller →
        ¬ completed < submitted →
        place'.pc =
          .waiting (.unlocking completed submitted) since caller →
        since ⊆ shared.history.finished) :
    place'.pc.Waited shared'.history := by
  refine step.of_wait ?_ ?_
  · intro pc outside
    cases pc <;> first | contradiction | trivial
  · intro step
    cases step with
    | pass call completed submitted since caller reached =>
        exact passing completed submitted since caller rfl reached rfl
    | unlock call completed submitted since caller =>
        exact before
    | ret call since caller =>
        cases caller <;> trivial
    | _ =>
        trivial

/--
Lists without repetition: when a long one lies within a short one, they have
the same elements.
-/
theorem subset_of_subset_of_length_le
    {Item : Type*}
    {long short : List Item}
    (nodup : long.Nodup)
    (within : long ⊆ short)
    (length : short.length ≤ long.length) :
    short ⊆ long :=
  ((nodup.subperm within).perm_of_length_le length).symm.subset

section

variable
    {config : Config}
    {Client Func Arg Local : Type}
    [DecidableEq Client]
    {behaviour : TaskBehaviour Func Arg Local}
    {state later : State config Client Func Arg Local}

/-- What returned 0 has been counted. -/
theorem reachable_acknowledged_subset
    [Fintype Client]
    (reachable :
      (system config Client behaviour).Reachable state) :
    state.shared.history.acknowledged ⊆ state.shared.history.counted := by
  have balanced := acknowledgingAccount_sound.balanced reachable
  simp only [acknowledgingAccount, State.record, Shared.record] at balanced
  intro id acknowledged
  rw [← Multiset.mem_coe, balanced]
  exact Multiset.mem_add.mpr (Or.inl acknowledged)

/-- What is counted as completed has finished. -/
theorem reachable_completed_subset
    [Fintype Client]
    (reachable :
      (system config Client behaviour).Reachable state) :
    state.shared.history.completed ⊆ state.shared.history.finished := by
  have balanced := completingAccount_sound.balanced reachable
  simp only [completingAccount, State.record, Shared.record] at balanced
  intro id completed
  rw [← Multiset.mem_coe, balanced]
  exact Multiset.mem_add.mpr (Or.inl completed)

/-- No task is counted as completed twice. -/
theorem reachable_completed_nodup
    [Fintype Client]
    (reachable :
      (system config Client behaviour).Reachable state) :
    state.shared.history.completed.Nodup := by
  have called := reachable_called_nodup reachable
  have executed := executingAccount_sound.balanced reachable
  have completed := completingAccount_sound.balanced reachable
  simp only [executingAccount, State.record, Shared.record] at executed
  simp only [completingAccount, State.record, Shared.record] at completed
  rw [executed] at called
  have finished := (Multiset.nodup_add.mp called).1
  rw [completed] at finished
  exact (Multiset.nodup_add.mp finished).1

/-- Every waiter knows what it waits for. -/
theorem reachable_waitsFor
    [Fintype Client]
    (reachable :
      (system config Client behaviour).Reachable state)
    (thread : Thread config.numThreads Client) :
    (state.pc thread).WaitsFor state.shared.history := by
  have undisturbed :
      Undisturbed behaviour
        (fun (_ : Thread config.numThreads Client) shared
            (pc : Pc Func Arg Local) =>
          pc.WaitsFor shared.history) := {
    other := by
      intro thread other shared place shared' place' pc _ step _ waits
      exact waits.mono step.extends
    wake := fun _ _ _ _ _ _ => id
    broadcast := fun _ _ => id
    destroying := fun _ _ _ _ => id }
  refine System.Reachable.invariant
    (fun state =>
      ∀ thread, (state.pc thread).WaitsFor state.shared.history)
    ?_ ?_ reachable thread
  · intro first initial thread
    subst initial
    cases thread <;> trivial
  · intro before after beforeReachable waits next
    refine undisturbed.next ?_ next waits
    intro actor shared' place' _ step
    have counts := reachable_counts beforeReachable
    have acknowledged := reachable_acknowledged_subset beforeReachable
    have own := (waits actor).mono step.extends
    change (before.place actor).pc.WaitsFor _ at own
    generalize before.place actor = place at step own
    refine step.of_wait ?_ ?_
    · intro pc outside
      cases pc <;> first | contradiction | trivial
    · intro step
      cases step with
      | call call caller may =>
          exact acknowledged
      | lock call since caller free
      | wake call completed wake since caller awake free =>
          exact ⟨nofun, nofun, own⟩
      | loadCompleted call submitted since caller =>
          refine ⟨?_, own.2⟩
          intro loaded isLoaded
          obtain rfl := Option.some.inj isLoaded
          exact counts.2.le
      | loadSubmitted call completed since caller =>
          refine ⟨own.1, ?_, own.2.2⟩
          intro loaded isLoaded
          obtain rfl := Option.some.inj isLoaded
          rw [counts.1, List.take_length]
          exact own.2.2
      | sleep call completed submitted since caller behind
      | pass call completed submitted since caller reached =>
          exact own.2.2
      | unlock call completed submitted since caller =>
          exact own
      | ret call since caller =>
          cases caller <;> trivial

/-- Every return of `thread_pool_wait` comes after the tasks before its call. -/
def WaitsForAll
    (state : State config Client Func Arg Local) : Prop :=
  ∀ thread since caller,
    state.pc thread = .waiting .done since caller →
    since ⊆ state.shared.history.finished

/--
A wait that returns too early: the first client's task completes before it is
counted, and its completion stands in for the second client's task.
-/
theorem exists_not_waitsForAll :
    ∃ state : State smallConfig Bool Nat Nat Unit,
      (system smallConfig Bool idleTasks).Reachable state ∧
        ¬ WaitsForAll state := by
  have start : (system smallConfig Bool idleTasks).Reachable _ :=
    .start rfl
  -- The first client links its task and stops before counting it.
  have called := start.step
    (.step (.client false) (by decide)
      (.own (.submit (.call _ .client 7 8 .normal trivial))))
  have checked := called.step
    (.step (.client false) (by decide)
      (.own (.submit (.checkPassed _ .client rfl))))
  have allocated := checked.step
    (.step (.client false) (by decide)
      (.queue (.alloc 7 ⟨0, 8⟩ .normal 0 0 rfl rfl)))
  have linked := allocated.step
    (.step (.client false) (by decide)
      (.queue (.pushLinked 7 ⟨0, 8⟩ 0 _ _ ∅ (.enter rfl)
        ⟨by simp, by decide⟩)))
  -- The worker completes it.
  have popping := linked.step
    (.step (.worker 0) (by decide) (.own (.worker .pop)))
  have unlinked := popping.step
    (.step (.worker 0) (by decide)
      (.queue (.popUnlinked .pop 0 _ _ ∅ (.enter rfl) rfl
        ⟨by simp, by decide⟩)))
  have taken := unlinked.step
    (.step (.worker 0) (by decide)
      (.queue (.popTaken .pop 0 _ _ rfl rfl)))
  have activating := taken.step
    (.step (.worker 0) (by decide)
      (.own (.worker (.taken _ (by decide)))))
  have entering := activating.step
    (.step (.worker 0) (by decide) (.own (.worker (.activate _ _))))
  have running := entering.step
    (.step (.worker 0) (by decide) (.own (.worker (.enter _ _))))
  have finished := running.step
    (.step (.worker 0) (by decide)
      (.own (.worker (.finish _ _ _ rfl))))
  have deactivated := finished.step
    (.step (.worker 0) (by decide) (.own (.worker (.deactivate _ _))))
  have completed := deactivated.step
    (.step (.worker 0) (by decide) (.own (.worker (.complete _ _))))
  -- The second client's call of `thread_pool_submit` returns 0.
  have secondCalled := completed.step
    (.step (.client true) (by decide)
      (.own (.submit (.call _ .client 7 9 .normal trivial))))
  have secondChecked := secondCalled.step
    (.step (.client true) (by decide)
      (.own (.submit (.checkPassed _ .client rfl))))
  have secondAllocated := secondChecked.step
    (.step (.client true) (by decide)
      (.queue (.alloc 7 ⟨1, 9⟩ .normal 0 0 rfl rfl)))
  have secondLinked := secondAllocated.step
    (.step (.client true) (by decide)
      (.queue (.pushLinked 7 ⟨1, 9⟩ 0 _ _ ∅ (.enter rfl)
        ⟨by simp, by decide⟩)))
  have secondCounted := secondLinked.step
    (.step (.client true) (by decide)
      (.own (.submit (.counted _ .client))))
  have acknowledged := secondCounted.step
    (.step (.client true) (by decide)
      (.own (.submit (.acknowledged _ _ .client))))
  -- Its wait loads 1 and 1 and returns beside the queued task.
  have waiting := acknowledged.step
    (.step (.client true) (by decide)
      (.own (.wait (.call _ .client trivial))))
  have locked := waiting.step
    (.step (.client true) (by decide)
      (.own (.wait (.lock _ _ .client rfl))))
  have loaded := locked.step
    (.step (.client true) (by decide)
      (.own (.wait (.loadCompleted _ _ _ .client))))
  have both := loaded.step
    (.step (.client true) (by decide)
      (.own (.wait (.loadSubmitted _ _ _ .client))))
  have passed := both.step
    (.step (.client true) (by decide)
      (.own (.wait (.pass _ _ _ _ .client (by decide)))))
  have unlocked := passed.step
    (.step (.client true) (by decide)
      (.own (.wait (.unlock _ _ _ _ .client))))
  refine ⟨_, unlocked, ?_⟩
  intro waits
  have early := waits (.client true) [1] .client rfl
  exact absurd early (by decide)

/--
When the test of a waiter passes, the completions it has counted belong to
submissions it has counted.
-/
def PassesFairly
    (state later : State config Client Func Arg Local) : Prop :=
  ∀ thread completed submitted since caller,
    state.pc thread =
      .waiting (.testing (some completed) (some submitted))
        since caller →
    later.pc thread =
      .waiting (.unlocking completed submitted) since caller →
    state.shared.history.completed.take completed ⊆
      state.shared.history.counted.take submitted

/-- A test that passes fairly has seen all tasks before the call complete. -/
theorem reachable_passesFairly
    [Fintype Client]
    (reachable :
      (system config Client behaviour).Reachable state)
    {thread : Thread config.numThreads Client}
    {completed submitted : Nat}
    {since : List Nat}
    {caller : Caller Func Arg Local}
    (here :
      state.pc thread =
        .waiting (.testing (some completed) (some submitted))
          since caller)
    (reached : ¬ completed < submitted)
    (fair :
      state.shared.history.completed.take completed ⊆
        state.shared.history.counted.take submitted) :
    since ⊆ state.shared.history.finished := by
  have waits := reachable_waitsFor reachable thread
  rw [here] at waits
  obtain ⟨loadedCompleted, loadedSubmitted, _⟩ := waits
  have enough := loadedCompleted completed rfl
  have nodup :=
    (reachable_completed_nodup reachable).sublist
      (List.take_sublist completed state.shared.history.completed)
  have same :
      state.shared.history.counted.take submitted ⊆
        state.shared.history.completed.take completed := by
    refine subset_of_subset_of_length_le nodup fair ?_
    rw [List.length_take, List.length_take]
    omega
  calc
    since ⊆ state.shared.history.counted.take submitted :=
      loadedSubmitted submitted rfl
    _ ⊆ state.shared.history.completed.take completed := same
    _ ⊆ state.shared.history.completed := List.take_subset _ _
    _ ⊆ state.shared.history.finished :=
      reachable_completed_subset reachable

/-- What holds past the test, when the test has passed fairly. -/
theorem Next.waited
    [Fintype Client]
    (next : Next behaviour state later)
    (reachable :
      (system config Client behaviour).Reachable state)
    (fair : PassesFairly state later)
    (waited :
      ∀ thread, (state.pc thread).Waited state.shared.history)
    (thread : Thread config.numThreads Client) :
    (later.pc thread).Waited later.shared.history := by
  have undisturbed :
      Undisturbed behaviour
        (fun (_ : Thread config.numThreads Client) shared
            (pc : Pc Func Arg Local) =>
          pc.Waited shared.history) := {
    other := by
      intro thread other shared place shared' place' pc _ step _ waited
      exact waited.mono step.extends
    wake := by
      intros
      trivial
    broadcast := fun _ _ => id
    destroying := fun _ _ _ _ => id }
  refine undisturbed.next ?_ next waited thread
  intro actor shared' place' isLater step
  refine step.waited (waited actor) ?_
  intro completed submitted since caller here reached passes
  refine reachable_passesFairly reachable here reached ?_
  refine fair actor completed submitted since caller here ?_
  rw [isLater]
  simpa [State.put] using passes

/-- Where every test passes fairly, every wait returns on time. -/
theorem reachable_waitsForAll
    [Fintype Client]
    (reachable :
      ((system config Client behaviour).restrict
        PassesFairly).Reachable state) :
    WaitsForAll state := by
  have waited :
      ∀ thread, (state.pc thread).Waited state.shared.history := by
    refine System.Reachable.invariant
      (fun state =>
        ∀ thread, (state.pc thread).Waited state.shared.history)
      ?_ ?_ reachable
    · intro first initial thread
      subst initial
      cases thread <;> trivial
    · intro before after beforeReachable waited next
      exact next.1.waited beforeReachable.of_restrict next.2 waited
  intro thread since caller here
  have known := waited thread
  rw [here] at known
  exact known

end

/-- The two values a waiter compares. -/
def Pc.loaded
    {Func Arg Local : Type} :
    Pc Func Arg Local → Option (Nat × Nat)
  | .waiting (.testing (some completed) (some submitted)) _ _ =>
      some (completed, submitted)
  | _ => none

/-- Steps from a state where every waiter would pass fairly. -/
theorem PassesFairly.of_loaded
    {config : Config}
    {Client Func Arg Local : Type}
    {state later : State config Client Func Arg Local}
    (fair :
      ∀ thread,
        ∀ values ∈ (state.pc thread).loaded,
          state.shared.history.completed.take values.1 ⊆
            state.shared.history.counted.take values.2) :
    PassesFairly state later := by
  intro thread completed submitted since caller here _
  exact fair thread (completed, submitted) (by rw [here]; rfl)

/-- A client submits a task, waits for it, and returns after it has finished. -/
theorem exists_fair_return :
    ∃ state : State smallConfig Unit Nat Nat Unit,
      ((system smallConfig Unit idleTasks).restrict
        PassesFairly).Reachable state ∧
        state.pc (.client ()) = .waiting .done [0] .client := by
  have start :
      ((system smallConfig Unit idleTasks).restrict
        PassesFairly).Reachable _ :=
    .start rfl
  have called := start.step
    ⟨.step (.client ()) (by decide)
      (.own (.submit (.call _ .client 7 8 .normal trivial))),
      .of_loaded (by decide)⟩
  have checked := called.step
    ⟨.step (.client ()) (by decide)
      (.own (.submit (.checkPassed _ .client rfl))),
      .of_loaded (by decide)⟩
  have allocated := checked.step
    ⟨.step (.client ()) (by decide)
      (.queue (.alloc 7 ⟨0, 8⟩ .normal 0 0 rfl rfl)),
      .of_loaded (by decide)⟩
  have linked := allocated.step
    ⟨.step (.client ()) (by decide)
      (.queue (.pushLinked 7 ⟨0, 8⟩ 0 _ _ ∅ (.enter rfl)
        ⟨by simp, by decide⟩)),
      .of_loaded (by decide)⟩
  have counted := linked.step
    ⟨.step (.client ()) (by decide)
      (.own (.submit (.counted _ .client))),
      .of_loaded (by decide)⟩
  have submitted := counted.step
    ⟨.step (.client ()) (by decide)
      (.own (.submit (.acknowledged _ _ .client))),
      .of_loaded (by decide)⟩
  have popping := submitted.step
    ⟨.step (.worker 0) (by decide) (.own (.worker .pop)),
      .of_loaded (by decide)⟩
  have unlinked := popping.step
    ⟨.step (.worker 0) (by decide)
      (.queue (.popUnlinked .pop 0 _ _ ∅ (.enter rfl) rfl
        ⟨by simp, by decide⟩)),
      .of_loaded (by decide)⟩
  have taken := unlinked.step
    ⟨.step (.worker 0) (by decide)
      (.queue (.popTaken .pop 0 _ _ rfl rfl)),
      .of_loaded (by decide)⟩
  have activating := taken.step
    ⟨.step (.worker 0) (by decide)
      (.own (.worker (.taken _ (by decide)))),
      .of_loaded (by decide)⟩
  have entering := activating.step
    ⟨.step (.worker 0) (by decide) (.own (.worker (.activate _ _))),
      .of_loaded (by decide)⟩
  have running := entering.step
    ⟨.step (.worker 0) (by decide) (.own (.worker (.enter _ _))),
      .of_loaded (by decide)⟩
  have finished := running.step
    ⟨.step (.worker 0) (by decide)
      (.own (.worker (.finish _ _ _ rfl))),
      .of_loaded (by decide)⟩
  have deactivated := finished.step
    ⟨.step (.worker 0) (by decide) (.own (.worker (.deactivate _ _))),
      .of_loaded (by decide)⟩
  have completed := deactivated.step
    ⟨.step (.worker 0) (by decide) (.own (.worker (.complete _ _))),
      .of_loaded (by decide)⟩
  have waiting := completed.step
    ⟨.step (.client ()) (by decide)
      (.own (.wait (.call _ .client trivial))),
      .of_loaded (by decide)⟩
  have locked := waiting.step
    ⟨.step (.client ()) (by decide)
      (.own (.wait (.lock _ _ .client rfl))),
      .of_loaded (by decide)⟩
  have loaded := locked.step
    ⟨.step (.client ()) (by decide)
      (.own (.wait (.loadCompleted _ _ _ .client))),
      .of_loaded (by decide)⟩
  have both := loaded.step
    ⟨.step (.client ()) (by decide)
      (.own (.wait (.loadSubmitted _ _ _ .client))),
      .of_loaded (by decide)⟩
  have passed := both.step
    ⟨.step (.client ()) (by decide)
      (.own (.wait (.pass _ _ _ _ .client (by decide)))),
      .of_loaded (by decide)⟩
  have unlocked := passed.step
    ⟨.step (.client ()) (by decide)
      (.own (.wait (.unlock _ _ _ _ .client))),
      .of_loaded (by decide)⟩
  exact ⟨_, unlocked, rfl⟩

/-- That wait has returned on time. -/
theorem reachable_waitsForAll_onTime :
    ∃ state : State smallConfig Unit Nat Nat Unit,
      ((system smallConfig Unit idleTasks).restrict
          PassesFairly).Reachable state ∧
        state.pc (.client ()) = .waiting .done [0] .client ∧
        WaitsForAll state := by
  obtain ⟨state, reachable, returned⟩ := exists_fair_return
  exact ⟨state, reachable, returned, reachable_waitsForAll reachable⟩

end SThread.ThreadPool
