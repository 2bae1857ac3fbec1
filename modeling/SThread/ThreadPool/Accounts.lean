import SThread.Library.Tally
import SThread.ThreadPool.Core

namespace SThread.ThreadPool

open SThread.Library
open SThread.Scheduler

/-!
# Accounts

What has come in equals what has gone out plus what the threads hold at the
moment.  An account names the two sides and the weight of a place; it is sound
when every move of a thread changes them by matching amounts, and a sound
account is balanced in every reachable state.
-/

/-- What the accounts of a pool are about. -/
structure Record (Func Arg : Type) where
  activeTasks : UInt64
  history : History Func Arg
  linked : List (Func × Job Arg)
  removed : List (Func × Job Arg)

/-- The record of a new pool. -/
def Record.empty
    (Func Arg : Type) : Record Func Arg where
  activeTasks := 0
  history := .empty Func Arg
  linked := []
  removed := []

/-- The record of the shared fields and of the two histories of the queue. -/
def Shared.record
    {Owner Func Arg : Type}
    (shared : Shared Owner Func Arg)
    (linked removed : List (Func × Job Arg)) :
    Record Func Arg where
  activeTasks := shared.activeTasks
  history := shared.history
  linked := linked
  removed := removed

/-- The steps of the queue at the program points of the pool. -/
inductive QueueMove
    {Func Arg Local : Type} :
    Pc Func Arg Local →
    Scheduler.Pc Func (Job Arg) → Scheduler.Pc Func (Job Arg) →
    List (Func × Job Arg) → List (Func × Job Arg) → Prop where
  | push
      (submission : Submission Func Arg)
      (caller : Caller Func Arg Local)
      (call call' : Scheduler.Pc Func (Job Arg))
      (unlinked : call.pushed = false)
      (unheld : call.held = [])
      (unheld' : call'.held = []) :
      QueueMove (.submitting .pushing submission caller) call call'
        (if call'.pushed = true then [submission.task] else []) []
  | pop
      (call call' : Scheduler.Pc Func (Job Arg))
      (removed : List (Func × Job Arg))
      (held : call'.held = call.held ++ removed) :
      QueueMove .popping call call' [] removed
  | shutdown :
      QueueMove (.destroying .shuttingDown)
        .shutdownEnter .shutdownDone [] []

/-- Every step of the queue inside a pool is one of these. -/
theorem Place.Agrees.queueMove
    {Func Arg Local : Type}
    {queue : TaskQueue}
    {index : Nat}
    {pc : Pc Func Arg Local}
    {call call' : Scheduler.Pc Func (Job Arg)}
    {linked removed : List (Func × Job Arg)}
    (agrees : (Place.mk pc call).Agrees)
    (inside : call ≠ .idle ∧ call.returned = false)
    (effect : Effect queue index call call' linked removed) :
    QueueMove pc call call' linked removed := by
  cases pc with
  | popping =>
      obtain ⟨_, rfl⟩ := effect.inPop agrees
      exact .pop call call' removed effect.held
  | submitting stage submission caller =>
      cases stage with
      | pushing =>
          obtain ⟨after, rfl⟩ := effect.inPush agrees
          rw [effect.linked_of_inPush agrees]
          exact .push submission caller call call'
            (Scheduler.Pc.pushed_of_inside inside.2)
            (Scheduler.Pc.held_of_inPush agrees)
            (Scheduler.Pc.held_of_inPush after)
      | _ =>
          exact (inside.1 agrees).elim
  | destroying stage =>
      cases stage with
      | shuttingDown =>
          rcases agrees with rfl | rfl
          · obtain ⟨rfl, rfl, rfl⟩ := effect.inShutdown
            exact .shutdown
          · exact Bool.noConfusion inside.2
      | _ =>
          exact (inside.1 agrees).elim
  | _ =>
      exact (inside.1 agrees).elim

/-- The record of a state. -/
def State.record
    {config : Config}
    {Client Func Arg Local : Type}
    (state : State config Client Func Arg Local) :
    Record Func Arg :=
  state.shared.record state.queue.linked state.queue.removed

/-- Two sides, and what a thread holds at each place. -/
structure Account (Func Arg Local Weight : Type) where
  credit : Record Func Arg → Weight
  debit : Record Func Arg → Weight
  weight : Place Func Arg Local → Weight

namespace Account

variable
    {Func Arg Local Weight : Type}
    [AddCancelCommMonoid Weight]

/-- A move of one thread changes the account by matching amounts. -/
def Matches
    (account : Account Func Arg Local Weight)
    (record : Record Func Arg)
    (place : Place Func Arg Local)
    (record' : Record Func Arg)
    (place' : Place Func Arg Local) : Prop :=
  account.credit record' + account.debit record +
      account.weight place =
    account.credit record + account.debit record' +
      account.weight place'

namespace Matches

variable
    {account : Account Func Arg Local Weight}
    {record record' : Record Func Arg}
    {place place' : Place Func Arg Local}

/-- A move that the account does not see. -/
theorem quiet
    (credit : account.credit record' = account.credit record)
    (debit : account.debit record' = account.debit record)
    (weight : account.weight place' = account.weight place) :
    account.Matches record place record' place' := by
  rw [Matches, credit, debit, weight]

/-- What comes in stays with the thread. -/
theorem receive
    (amount : Weight)
    (credit : account.credit record' = account.credit record + amount)
    (debit : account.debit record' = account.debit record)
    (weight : account.weight place' = account.weight place + amount) :
    account.Matches record place record' place' := by
  rw [Matches, credit, debit, weight]
  ac_rfl

/-- What the thread gives away goes out. -/
theorem pay
    (amount : Weight)
    (credit : account.credit record' = account.credit record)
    (debit : account.debit record' = account.debit record + amount)
    (weight : account.weight place = account.weight place' + amount) :
    account.Matches record place record' place' := by
  rw [Matches, credit, debit, weight]
  ac_rfl

/-- What the thread gives back comes off the credit. -/
theorem giveBack
    (amount : Weight)
    (credit : account.credit record = account.credit record' + amount)
    (debit : account.debit record' = account.debit record)
    (weight : account.weight place = account.weight place' + amount) :
    account.Matches record place record' place' := by
  rw [Matches, credit, debit, weight]
  ac_rfl

end Matches

/--
Every move of a thread changes the account by matching amounts.  Waiting and
destroying change no record, so only their weights matter.
-/
structure Sound
    (behaviour : TaskBehaviour Func Arg Local)
    (account : Account Func Arg Local Weight) : Prop where
  start :
    account.credit (.empty Func Arg) =
      account.debit (.empty Func Arg)
  idle :
    ∀ {numThreads : Nat} {Client : Type}
        (thread : Thread numThreads Client),
      account.weight ⟨State.start thread, .idle⟩ = 0
  stable :
    Place.Stable account.weight
  worker :
    ∀ {Owner : Type} (thread : Owner) shared place shared' place'
        linked removed,
      shared.poolState ≠ .terminated ∨ place.pc ≠ .popping →
      WorkerStep behaviour thread shared place shared' place' →
      account.Matches
        (shared.record linked removed) place
        (shared'.record linked removed) place'
  submit :
    ∀ {Owner : Type} (shared : Shared Owner Func Arg)
        place shared' place' linked removed,
      SubmitStep behaviour shared place shared' place' →
      account.Matches
        (shared.record linked removed) place
        (shared'.record linked removed) place'
  queue :
    ∀ {Owner : Type} (shared : Shared Owner Func Arg)
        pc call call' before after linked removed,
      QueueMove pc call call' linked removed →
      account.Matches
        (shared.record before after) ⟨pc, call⟩
        (shared.record (before ++ linked) (after ++ removed))
        ⟨pc, call'⟩
  waiting :
    ∀ stage since (caller : Caller Func Arg Local) call,
      account.weight ⟨.waiting stage since caller, call⟩ =
        account.weight ⟨caller.place, call⟩
  resume :
    ∀ ret (caller : Caller Func Arg Local) call,
      account.weight ⟨caller.resume behaviour ret, call⟩ =
        account.weight ⟨caller.place, call⟩
  broadcast :
    ∀ call,
      account.weight ⟨.broadcasting, call⟩ =
        account.weight ⟨.unlocking, call⟩
  destroying :
    ∀ stage call stage' call',
      account.weight ⟨.destroying stage, call⟩ =
        account.weight ⟨.destroying stage', call'⟩

/-- A wait is not seen by a sound account. -/
theorem Sound.wait
    {behaviour : TaskBehaviour Func Arg Local}
    {account : Account Func Arg Local Weight}
    (sound : account.Sound behaviour)
    {Owner : Type}
    {thread : Owner}
    {shared shared' : Shared Owner Func Arg}
    {place place' : Place Func Arg Local}
    (step : WaitStep behaviour thread shared place shared' place')
    (linked removed : List (Func × Job Arg)) :
    account.Matches
      (shared.record linked removed) place
      (shared'.record linked removed) place' := by
  cases step with
  | call call caller may =>
      exact .quiet rfl rfl (sound.waiting _ _ caller call)
  | ret call since caller =>
      exact .quiet rfl rfl
        ((sound.resume 0 caller call).trans
          (sound.waiting _ since caller call).symm)
  | _ =>
      exact .quiet rfl rfl
        ((sound.waiting _ _ _ _).trans (sound.waiting _ _ _ _).symm)

/-- Nor is a step of `thread_pool_destroy`. -/
theorem Sound.destroy
    {behaviour : TaskBehaviour Func Arg Local}
    {account : Account Func Arg Local Weight}
    (sound : account.Sound behaviour)
    {Owner : Type}
    {numThreads : Nat}
    {shared shared' : Shared Owner Func Arg}
    {place place' : Place Func Arg Local}
    (step : DestroyStep numThreads shared place shared' place')
    (linked removed : List (Func × Job Arg)) :
    account.Matches
      (shared.record linked removed) place
      (shared'.record linked removed) place' := by
  cases step <;> exact .quiet rfl rfl (sound.destroying _ _ _ _)

end Account

section

variable
    {config : Config}
    {Client Func Arg Local Weight : Type}
    [DecidableEq Client]
    [AddCancelCommMonoid Weight]
    {behaviour : TaskBehaviour Func Arg Local}
    {state later : State config Client Func Arg Local}
    {thread : Thread config.numThreads Client}
    {account : Account Func Arg Local Weight}

/-- A step of a thread changes a sound account by matching amounts. -/
theorem Account.Sound.matches_step
    (sound : account.Sound behaviour)
    (step : Step behaviour state thread later)
    (core : Core state) :
    account.Matches
      state.record (state.place thread)
      later.record (later.place thread) := by
  have agrees := core.agrees thread
  cases step with
  | queue step =>
      obtain ⟨channel, nodes, refines⟩ := core.refines
      obtain ⟨linked, removed, linkedIs, removedIs, effect⟩ :=
        step.effect refines
      have matching :=
        sound.queue state.shared _ _ _
          state.queue.linked state.queue.removed _ _
          (agrees.queueMove step.inside effect)
      simpa only [State.record, State.place, linkedIs, removedIs]
        using matching
  | @own shared' place' step =>
      have matching :
          account.Matches
            (state.shared.record state.queue.linked state.queue.removed)
            (state.place thread)
            (shared'.record state.queue.linked state.queue.removed)
            place' := by
        cases step with
        | worker step =>
            refine sound.worker thread _ _ _ _ _ _ ?_ step
            by_cases popping : (state.place thread).pc = .popping
            · exact Or.inl (core.alive thread popping)
            · exact Or.inr popping
        | submit step =>
            exact sound.submit _ _ _ _ _ _ step
        | wait step =>
            exact sound.wait step _ _
        | destroy step =>
            exact sound.destroy step _ _
      simpa only [State.record, State.place, State.put,
        Scheduler.State.setPc, Function.update_self] using matching
  | broadcast here =>
      refine .quiet rfl rfl ?_
      simp only [State.place, broadcast_actor, here]
      exact (sound.broadcast _).symm
  | join next here inRange ended
  | destroyQueue heap here frees =>
      refine .quiet rfl rfl ?_
      simp only [State.place, Function.update_self, here]
      exact sound.destroying _ _ _ _
  | destroyQueueFault here fails =>
      obtain rfl := core.destroyer_of here
      rw [(core.destroyQueue here).1] at fails
      contradiction

/-- A balanced account stays balanced. -/
theorem Account.Sound.step
    [Fintype Client]
    (sound : account.Sound behaviour)
    (next : Next behaviour state later)
    (core : Core state)
    (balanced :
      account.credit state.record =
        account.debit state.record +
          tally account.weight state.place) :
    account.credit later.record =
      account.debit later.record +
        tally account.weight later.place := by
  cases next with
  | step thread allocated step =>
      refine balance_step balanced ?_ (sound.matches_step step core)
      exact tally_change thread
        (fun other notActor =>
          step.observe_other sound.stable notActor)
  | queueSpurious thread allocated wakes =>
      have same :=
        tally_congr (observe_queueSpurious sound.stable wakes)
      rw [same]
      exact balanced
  | waitSpurious thread completed since caller allocated here =>
      have same :=
        tally_congr (observe_waitSpurious sound.stable here)
      rw [same]
      exact balanced

/-- A sound account is balanced in every reachable state. -/
theorem Account.Sound.balanced
    [Fintype Client]
    (sound : account.Sound behaviour)
    (reachable :
      (system config Client behaviour).Reachable state) :
    account.credit state.record =
      account.debit state.record +
        tally account.weight state.place := by
  refine System.Reachable.invariant
    (fun state =>
      account.credit state.record =
        account.debit state.record +
          tally account.weight state.place)
    ?_ ?_ reachable
  · rintro first rfl
    have nothing :
        tally account.weight
            (State.initial config Client Func Arg Local).place =
          0 :=
      Finset.sum_eq_zero (fun thread _ => sound.idle thread)
    rw [nothing, add_zero]
    exact sound.start
  · intro before after beforeReachable balanced next
    exact sound.step next (reachable_core beforeReachable) balanced

end

end SThread.ThreadPool
