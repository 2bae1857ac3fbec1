import SThread.Sync.HandOffTokens
import SThread.Sync.SemWakeup

namespace SThread.Sync.HandOff

open SThread.Library

/-!
# A run in which the two threads take turns

A thread whose semaphore holds a token goes through a round without anybody else
moving.  So the two can take turns, and hand over as many items as they like.
-/

/-- Nobody is inside a call; this is where the threads are, and the semaphores. -/
structure OutsideCalls
    (sems : Party → SyncSem)
    (rounds : Party → Nat)
    (place : Party → Place)
    (state : State) : Prop where
  sems : ∀ owner, (state.sems owner).sem = sems owner
  rounds : state.rounds = rounds
  place : state.place = place
  idle : ∀ owner, (state.sems owner).pc = fun _ => .idle

section Turns

variable
    {slots : UInt32}
    {count : Nat}
    {sems : Party → SyncSem}
    {rounds : Party → Nat}
    {place : Party → Place}
    {state : State}

/-- A thread takes a token that is there. -/
theorem OutsideCalls.take
    (outside : OutsideCalls sems rounds place state)
    (reachable : (system slots count).Reachable state)
    (party : Party)
    (initialized : (sems party).initialized = true)
    (here : place party = .loop)
    (more : rounds party < count)
    (available : (sems party).count ≠ 0) :
    ∃ later,
      (system slots count).Reachable later ∧
        OutsideCalls
          (Function.update sems party (sems party).take) rounds
          (Function.update place party .access) later := by
  obtain ⟨sem, rfl, rfl, idle⟩ := outside
  have waits :=
    reachable.step
      (.callWait party .waitEnter here more
        (start_wait (by rw [sem]; exact initialized)))
  have takes :=
    waits.step
      (.returns party party _
        (.waitTakes (sems party).take
          (by simp [State.setSem, State.setPlace, Sync.State.setPc,
            Pc.atWaitTest])
          (by simp [State.setSem, State.setPlace, Sync.State.setPc, sem,
            semWaitTest, available]))
        (by simp [Sync.State.ret]))
  rw [State.goOn_waiting
    (by simp [State.setSem, State.setPlace])] at takes
  refine ⟨_, takes, ?_, rfl, ?_, ?_⟩
  · intro owner
    by_cases same : owner = party
    · subst same
      simp [State.setSem, State.setPlace]
    · simp [State.setSem, State.setPlace, Function.update_of_ne same, sem]
  · simp [State.setSem, State.setPlace]
  · intro owner
    by_cases same : owner = party
    · subst same
      simp [State.setSem, State.setPlace, Sync.State.ret,
        Sync.State.setPc, idle]
    · simp [State.setSem, State.setPlace, Function.update_of_ne same, idle]

/-- A thread at its access goes on to its post. -/
theorem OutsideCalls.access
    (outside : OutsideCalls sems rounds place state)
    (reachable : (system slots count).Reachable state)
    (party : Party)
    (here : place party = .access) :
    ∃ later,
      (system slots count).Reachable later ∧
        OutsideCalls sems rounds
          (Function.update place party .post) later := by
  obtain ⟨sem, rfl, rfl, idle⟩ := outside
  cases party with
  | producer =>
      exact ⟨_, reachable.step (.produce here), sem, rfl, rfl, idle⟩
  | consumer =>
      exact ⟨_, reachable.step (.consume here), sem, rfl, rfl, idle⟩

/-- A thread puts its token into the other semaphore. -/
theorem OutsideCalls.put
    (outside : OutsideCalls sems rounds place state)
    (reachable : (system slots count).Reachable state)
    (party : Party)
    (initialized : (sems party.other).initialized = true)
    (here : place party = .post) :
    ∃ later,
      (system slots count).Reachable later ∧
        OutsideCalls
          (Function.update sems party.other
            (syncSemPost (sems party.other)))
          (Function.update rounds party (rounds party + 1))
          (Function.update place party .loop) later := by
  obtain ⟨sem, rfl, rfl, idle⟩ := outside
  have calls :=
    reachable.step
      (.callPost party .postEnter here
        (start_post (by rw [sem]; exact initialized)))
  have posts :=
    calls.step
      (.returns party.other party _
        (.post ∅
          (by simp [State.setSem, State.setPlace, Sync.State.setPc])
          (CondVar.signals_empty
            (by
              simp [State.setSem, State.setPlace, Sync.State.setPc, idle,
                semCond, Pc.asleep])))
        (by simp [CondVar.notify]))
  rw [State.goOn_posting
    (by simp [State.setSem, State.setPlace])] at posts
  refine ⟨_, posts, ?_, rfl, ?_, ?_⟩
  · intro owner
    by_cases same : owner = party.other
    · subst same
      simp [State.setSem, State.setPlace, Sync.State.ret,
        Sync.State.setPc, sem]
    · simp [State.setSem, State.setPlace, Function.update_of_ne same, sem]
  · simp [State.setSem, State.setPlace]
  · intro owner
    by_cases same : owner = party.other
    · subst same
      simp [State.setSem, State.setPlace, Sync.State.setPc, idle]
    · simp [State.setSem, State.setPlace, Function.update_of_ne same, idle]

/-- So a thread goes through one round on its own. -/
theorem OutsideCalls.turn
    (outside : OutsideCalls sems rounds place state)
    (reachable : (system slots count).Reachable state)
    (initialized : ∀ owner, (sems owner).initialized = true)
    (party : Party)
    (here : place party = .loop)
    (more : rounds party < count)
    (available : (sems party).count ≠ 0) :
    ∃ later,
      (system slots count).Reachable later ∧
        OutsideCalls
          (Function.update
            (Function.update sems party (sems party).take)
            party.other (syncSemPost (sems party.other)))
          (Function.update rounds party (rounds party + 1))
          place later := by
  obtain ⟨_, taken, outside⟩ :=
    outside.take reachable party (initialized party) here more available
  obtain ⟨_, accessed, outside⟩ :=
    outside.access taken party (Function.update_self _ _ _)
  obtain ⟨later, posted, outside⟩ :=
    outside.put accessed party
      (by simpa using initialized party.other)
      (Function.update_self _ _ _)
  refine ⟨later, posted, ?_⟩
  simpa [← here] using outside

/-- Both threads have gone through so many rounds. -/
def AfterRounds
    (slots : UInt32)
    (rounds : Nat)
    (state : State) : Prop :=
  OutsideCalls (fun owner => syncSemInit (credit slots owner))
    (fun _ => rounds) (fun _ => .loop) state

/-- After a token has been taken and put back the counter is as before. -/
theorem syncSemPost_take (value : UInt32) :
    syncSemPost (syncSemInit value).take = syncSemInit value := by
  simp [syncSemPost, SyncSem.take, syncSemInit]

/-- And the other way round. -/
theorem take_syncSemPost (value : UInt32) :
    (syncSemPost (syncSemInit value)).take = syncSemInit value := by
  simp [syncSemPost, SyncSem.take, syncSemInit]

/-- The producer and then the consumer go through one more round. -/
theorem AfterRounds.next
    {round : Nat}
    (after : AfterRounds slots round state)
    (reachable : (system slots count).Reachable state)
    (positive : slots ≠ 0)
    (more : round < count) :
    ∃ later,
      (system slots count).Reachable later ∧
        AfterRounds slots (round + 1) later := by
  obtain ⟨_, produced, outside⟩ :=
    OutsideCalls.turn after reachable (fun _ => rfl) .producer rfl more
      positive
  obtain ⟨later, consumed, outside⟩ :=
    outside.turn produced
      (by rintro ⟨⟩ <;> rfl) .consumer rfl more
      (by simp [Party.other, credit, syncSemPost, syncSemInit])
  refine ⟨later, consumed, ?_⟩
  obtain ⟨sems, rounds, place, idle⟩ := outside
  refine ⟨?_, ?_, place, idle⟩
  · intro owner
    rw [sems]
    cases owner with
    | producer =>
        exact syncSemPost_take slots
    | consumer =>
        exact take_syncSemPost 0
  · rw [rounds]
    funext party
    cases party <;> rfl

/-- Both threads can come to the end of their loops. -/
theorem exists_afterRounds
    (positive : slots ≠ 0)
    {round : Nat}
    (enough : round ≤ count) :
    ∃ state,
      (system slots count).Reachable state ∧
        AfterRounds slots round state := by
  induction round with
  | zero =>
      exact ⟨_, .start rfl, fun _ => rfl, rfl, rfl, fun _ => rfl⟩
  | succ round inductionHypothesis =>
      obtain ⟨state, reachable, after⟩ :=
        inductionHypothesis (Nat.le_of_succ_le enough)
      exact after.next reachable positive enough

/-- Any number of items can be handed over. -/
theorem exists_finished
    (slots : UInt32)
    (positive : slots ≠ 0)
    (count : Nat) :
    ∃ state,
      (system slots count).Reachable state ∧
        ∀ party, Finished count state party := by
  obtain ⟨state, reachable, after⟩ :=
    exists_afterRounds positive (Nat.le_refl count)
  refine ⟨state, reachable, ?_⟩
  intro party
  exact ⟨by rw [after.place], by rw [after.rounds]⟩

end Turns

end SThread.Sync.HandOff
