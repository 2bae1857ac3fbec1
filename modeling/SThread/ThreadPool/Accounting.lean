import Mathlib.Algebra.BigOperators.Group.Multiset.Basic
import Mathlib.Algebra.Order.BigOperators.Group.Multiset
import Mathlib.Algebra.BigOperators.Ring.Finset
import Mathlib.Data.Fintype.BigOperators
import SThread.ThreadPool.Ledger
import SThread.ThreadPool.Places

namespace SThread.ThreadPool

open SThread.Library
open SThread.Scheduler

/-!
# The counters of the pool

What the accounts say about `queue.count`, `completed_tasks`,
`submitted_tasks` and `active_tasks`, with every program point at which a task
is in none of the counters.
-/

namespace Place

variable
    {Func Arg Local : Type}

/-- Between a successful pop and the increment of `completed_tasks`. -/
def holding
    (place : Place Func Arg Local) : Bool :=
  match place.pc with
  | .popping => !place.call.held.isEmpty
  | .activating _ => true
  | .entering _ => true
  | .running _ _ => true
  | .deactivating _ => true
  | .completing _ => true
  | .submitting _ _ (.task _ _) => true
  | .waiting _ _ (.task _ _) => true
  | _ => false

/-- Between the linking of the node and the increment of `submitted_tasks`. -/
def counting
    (place : Place Func Arg Local) : Bool :=
  match place.pc with
  | .submitting .pushing _ _ => place.call.pushed
  | _ => false

/-- A thread between linking and counting holds one submission. -/
theorem card_uncounted
    (place : Place Func Arg Local) :
    place.uncounted.card = place.counting.toNat := by
  obtain ⟨pc, call⟩ := place
  cases pc with
  | submitting stage submission caller =>
      cases stage with
      | pushing =>
          cases pushed : call.pushed <;>
            simp [uncounted, counting, pushed]
      | _ =>
          rfl
  | _ =>
      rfl

/-- A thread holds at most one removed task. -/
theorem length_held
    (call : Scheduler.Pc Func (Job Arg)) :
    call.held.length = (!call.held.isEmpty).toNat := by
  cases call with
  | popDone kind result =>
      cases result <;> rfl
  | _ =>
      rfl

/-- A thread that holds a task is in exactly one of three accounts. -/
theorem card_holding
    (place : Place Func Arg Local) :
    place.uncalled.card + place.executing.card +
        place.uncompleted.card =
      place.holding.toNat := by
  obtain ⟨pc, call⟩ := place
  cases pc with
  | popping =>
      exact length_held call
  | submitting stage submission caller =>
      cases caller <;> rfl
  | waiting stage since caller =>
      cases caller <;> rfl
  | _ =>
      rfl

/-- Only workers hold tasks. -/
theorem role_of_holding
    {place : Place Func Arg Local}
    (holds : place.holding = true) :
    place.pc.role = .worker := by
  obtain ⟨pc, call⟩ := place
  cases pc with
  | submitting stage submission caller =>
      cases caller with
      | task item here =>
          rfl
      | client =>
          exact Bool.noConfusion holds
  | waiting stage since caller =>
      cases caller with
      | task item here =>
          rfl
      | client =>
          exact Bool.noConfusion holds
  | idle
  | destroying stage =>
      exact Bool.noConfusion holds
  | _ =>
      rfl

/-- A thread in a task holds it. -/
theorem holding_of_active
    {place : Place Func Arg Local}
    (active : place.active = true) :
    place.holding = true := by
  obtain ⟨pc, call⟩ := place
  cases pc with
  | submitting stage submission caller
  | waiting stage since caller =>
      cases caller with
      | task item here =>
          rfl
      | client =>
          exact Bool.noConfusion active
  | entering task
  | running task here
  | deactivating task =>
      rfl
  | _ =>
      exact Bool.noConfusion active

end Place

/-- The size of a tally is the tally of the sizes. -/
theorem card_tally
    {Thread Local Item : Type*}
    [Fintype Thread]
    (weight : Local → Multiset Item)
    (locals : Thread → Local) :
    (tally weight locals).card =
      tally (fun place => (weight place).card) locals :=
  map_sum Multiset.cardHom _ _

/-- Adding up over all threads is adding up over the three parties. -/
theorem tally_parties
    {numThreads : Nat}
    {Client Local Weight : Type}
    [Fintype Client]
    [AddCommMonoid Weight]
    (weight : Local → Weight)
    (locals : Thread numThreads Client → Local) :
    tally weight locals =
      tally weight (fun index => locals (.worker index)) +
        (tally weight (fun name => locals (.client name)) +
          weight (locals .destroyer)) := by
  unfold tally
  rw [← Equiv.sum_comp (Thread.parties numThreads Client),
    Fintype.sum_sum_type, Fintype.sum_sum_type]
  simp [Thread.parties]

/-- The counters are the lengths of their histories. -/
def Counts
    {Owner Func Arg : Type}
    (shared : Shared Owner Func Arg) : Prop :=
  shared.submittedTasks = shared.history.counted.length ∧
    shared.completedTasks = shared.history.completed.length

/-- Every increment comes with an entry in the history. -/
theorem LocalStep.counts
    {Owner Func Arg Local : Type}
    {behaviour : TaskBehaviour Func Arg Local}
    {thread : Owner}
    {numThreads : Nat}
    {shared shared' : Shared Owner Func Arg}
    {place place' : Place Func Arg Local}
    (step :
      LocalStep behaviour thread numThreads
        shared place shared' place')
    (counts : Counts shared) :
    Counts shared' := by
  obtain ⟨submitted, completed⟩ := counts
  cases step with
  | worker step =>
      cases step with
      | complete call task =>
          exact ⟨submitted, by simp [completed]⟩
      | _ =>
          exact ⟨submitted, completed⟩
  | submit step =>
      cases step with
      | counted submission caller =>
          exact ⟨by simp [submitted], completed⟩
      | _ =>
          exact ⟨submitted, completed⟩
  | wait step =>
      cases step <;> exact ⟨submitted, completed⟩
  | destroy step =>
      cases step <;> exact ⟨submitted, completed⟩

section

variable
    {config : Config}
    {Client Func Arg Local : Type}
    [DecidableEq Client]
    {behaviour : TaskBehaviour Func Arg Local}
    {state later : State config Client Func Arg Local}

/-- The two event counters of a reachable pool. -/
theorem reachable_counts
    (reachable :
      (system config Client behaviour).Reachable state) :
    Counts state.shared :=
  reachable_shared Counts ⟨rfl, rfl⟩
    (fun _ _ _ _ _ step => step.counts) reachable

/-- What the counters of a pool say about its tasks. -/
structure CountersAccount
    [Fintype Client]
    (state : State config Client Func Arg Local) : Prop where
  taken :
    state.queue.linked.length =
      state.queue.queue.count +
        population Place.holding
          (fun index => state.place (.worker index)) +
        state.shared.completedTasks
  counted :
    state.queue.linked.length =
      state.shared.submittedTasks +
        population Place.counting state.place
  active :
    state.shared.activeTasks.toNat =
      population Place.active
        (fun index => state.place (.worker index))
  bounded :
    state.shared.activeTasks.toNat ≤ config.numThreads
  noUnderflow :
    ∀ index task,
      state.pc (.worker index) = .deactivating task →
      0 < state.shared.activeTasks.toNat
  ahead :
    state.shared.completedTasks ≤
      state.shared.submittedTasks +
        population Place.counting state.place
  within :
    state.shared.completedTasks ≤
        state.shared.history.submissions.length ∧
      state.shared.submittedTasks ≤
        state.shared.history.submissions.length

/-- Threads that are not workers do not count. -/
theorem Core.population_workers
    [Fintype Client]
    (core : Core state)
    (test : Place Func Arg Local → Bool)
    (workers :
      ∀ place, test place = true → place.pc.role = .worker) :
    population test state.place =
      population test (fun index => state.place (.worker index)) := by
  have fails :
      ∀ thread : Thread config.numThreads Client,
        thread.role ≠ .worker →
        test (state.place thread) = false := by
    intro thread notWorker
    rw [← core.role thread] at notWorker
    exact Bool.eq_false_iff.mpr
      (fun passes => notWorker (workers _ passes))
  have noClient :
      ∀ name, test (state.place (.client name)) = false :=
    fun name => fails _ nofun
  rw [population_eq_tally, population_eq_tally, tally_parties,
    fails .destroyer nofun]
  simp [tally, noClient]

/-- The tasks a pool has removed are held by workers or completed. -/
theorem reachable_removed_length
    [Fintype Client]
    (reachable :
      (system config Client behaviour).Reachable state) :
    state.queue.removed.length =
      state.shared.completedTasks +
        population Place.holding state.place := by
  have called :=
    congrArg Multiset.card (callingAccount_sound.balanced reachable)
  have executed :=
    congrArg Multiset.card (executingAccount_sound.balanced reachable)
  have completed :=
    congrArg Multiset.card (completingAccount_sound.balanced reachable)
  have counts := reachable_counts reachable
  simp only [Multiset.card_add, card_tally, callingAccount,
    Multiset.coe_card, State.record, Shared.record] at called
  simp only [Multiset.card_add, card_tally, executingAccount, taskIds,
    Multiset.coe_card, State.record, Shared.record,
    List.length_map] at executed
  simp only [Multiset.card_add, card_tally, completingAccount,
    Multiset.coe_card, State.record, Shared.record] at completed
  have together :
      population Place.holding state.place =
        tally (fun place => place.uncalled.card) state.place +
          tally (fun place => place.executing.card) state.place +
          tally (fun place => place.uncompleted.card) state.place := by
    rw [population_eq_tally]
    unfold tally
    rw [← Finset.sum_add_distrib, ← Finset.sum_add_distrib]
    exact Finset.sum_congr rfl
      (fun thread _ => (Place.card_holding _).symm)
  rw [together, counts.2]
  omega

/-- The linked tasks are counted or about to be. -/
theorem reachable_linked_length
    [Fintype Client]
    (reachable :
      (system config Client behaviour).Reachable state) :
    state.queue.linked.length =
      state.shared.submittedTasks +
        population Place.counting state.place := by
  have counted :=
    congrArg Multiset.card (countingAccount_sound.balanced reachable)
  have counts := reachable_counts reachable
  simp only [Multiset.card_add, card_tally, countingAccount, taskIds,
    Multiset.coe_card, State.record, Shared.record,
    List.length_map] at counted
  rw [counted, counts.1, population_eq_tally]
  simp only [Place.card_uncounted]

/-- No more tasks are linked than have been submitted. -/
theorem reachable_linked_le
    [Fintype Client]
    (reachable :
      (system config Client behaviour).Reachable state) :
    state.queue.linked.length ≤
      state.shared.history.submissions.length := by
  have submitted :=
    congrArg Multiset.card (submissionAccount_sound.balanced reachable)
  simp only [Multiset.card_add, Multiset.card_range, submissionAccount,
    taskIds, Multiset.coe_card, State.record, Shared.record,
    List.length_map] at submitted
  omega

/-- `active_tasks` is the number of workers inside a task. -/
theorem reachable_active
    [Fintype Client]
    (reachable :
      (system config Client behaviour).Reachable state) :
    state.shared.activeTasks.toNat =
      population Place.active
        (fun index => state.place (.worker index)) := by
  have core := reachable_core reachable
  have balanced := activeAccount_sound.balanced reachable
  have few :
      population Place.active
          (fun index => state.place (.worker index)) ≤
        config.numThreads :=
    (Finset.card_le_univ _).trans_eq (Fintype.card_fin _)
  have residues :
      (state.shared.activeTasks.toNat : ZMod (2 ^ 64)) =
        population Place.active
          (fun index => state.place (.worker index)) := by
    rw [← core.population_workers Place.active
      (fun _ active => Place.role_of_holding
        (Place.holding_of_active active)), population_eq_tally]
    simpa [activeAccount, State.record, Shared.record, tally,
      Nat.cast_sum]
      using balanced
  have equal := (ZMod.natCast_eq_natCast_iff' _ _ _).mp residues
  rwa [Nat.mod_eq_of_lt state.shared.activeTasks.toNat_lt,
    Nat.mod_eq_of_lt (few.trans_lt config.numThreads_fits)] at equal

/-- The counters of every reachable pool account for all its tasks. -/
theorem reachable_countersAccount
    [Fintype Client]
    (reachable :
      (system config Client behaviour).Reachable state) :
    CountersAccount state := by
  have core := reachable_core reachable
  have lengths := core.length_linked
  have removed := reachable_removed_length reachable
  have linked := reachable_linked_length reachable
  have submitted := reachable_linked_le reachable
  have active := reachable_active reachable
  have taken :
      state.queue.linked.length =
        state.queue.queue.count +
          population Place.holding
            (fun index => state.place (.worker index)) +
          state.shared.completedTasks := by
    rw [core.population_workers Place.holding
      (fun _ => Place.role_of_holding)] at removed
    omega
  refine
    { taken := taken
      counted := linked
      active := active
      bounded := ?_
      noUnderflow := ?_
      ahead := ?_
      within := ?_ }
  · rw [active]
    exact (Finset.card_le_univ _).trans_eq (Fintype.card_fin _)
  · intro index task here
    rw [active]
    refine population_pos.mpr ⟨index, ?_⟩
    rw [State.place, here]
    rfl
  · omega
  · exact ⟨by omega, by omega⟩

end

/-- A client has linked its task and not counted it yet. -/
theorem reachable_countersAccount_linked :
    ∃ state : State smallConfig Unit Nat Nat Unit,
      (system smallConfig Unit idleTasks).Reachable state ∧
        state.queue.linked.length = 1 ∧
        state.shared.submittedTasks = 0 ∧
        CountersAccount state := by
  have start : (system smallConfig Unit idleTasks).Reachable _ :=
    .start rfl
  have called := start.step
    (.step (.client ()) (by decide)
      (.own (.submit (.call _ .client 7 8 .normal trivial))))
  have checked := called.step
    (.step (.client ()) (by decide)
      (.own (.submit (.checkPassed _ .client rfl))))
  have allocated := checked.step
    (.step (.client ()) (by decide)
      (.queue (.alloc 7 ⟨0, 8⟩ .normal 0 0 rfl rfl)))
  have linked := allocated.step
    (.step (.client ()) (by decide)
      (.queue (.pushLinked 7 ⟨0, 8⟩ 0 _ _ ∅ (.enter rfl) ⟨?_, ?_⟩)))
  · exact ⟨_, linked, rfl, rfl, reachable_countersAccount linked⟩
  · simp
  · decide

end SThread.ThreadPool
