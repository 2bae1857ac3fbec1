import SThread.Examples.BoundedBufferRuns
import SThread.Examples.BoundedBufferWork

namespace SThread.Examples.BoundedBuffer

open SThread.Library
open SThread.Sync
open SThread.Sync.HandOff (Party credit)

/-!
# What the tasks get out of the buffer

Every producer writes its items in order, every consumer adds up what it reads,
and the values that have been read are the first ones that were written.  So a
producer's items arrive in order, and when all tasks have ended everything that
was produced has been consumed once.
-/

section

variable
    {Thread : Type}
    [DecidableEq Thread]
    {program : Program Thread}
    {state later : State Thread}
    {thread : Thread}

/-- The values of one thread, in order. -/
def valuesOf
    (thread : Thread)
    (accesses : List (Thread × Nat)) : List Nat :=
  (accesses.filter (fun access => access.1 = thread)).map Prod.snd

/-- One more access is an access of its own thread. -/
theorem valuesOf_snoc
    (thread actor : Thread)
    (accesses : List (Thread × Nat))
    (value : Nat) :
    valuesOf thread (accesses ++ [(actor, value)]) =
      valuesOf thread accesses ++
        if actor = thread then [value] else [] := by
  by_cases same : actor = thread <;>
    simp [valuesOf, List.filter_append, same]

/-- A consumer's sum, with the item that it has read and not added yet. -/
def State.added
    (state : State Thread)
    (thread : Thread) : CInt .int :=
  if (state.place thread).accessed = true then
    state.sum thread + CInt.ofInt .int (state.item thread)
  else
    state.sum thread

/-- A producer has written its first items, a consumer added up what it has read. -/
def Accounted
    (program : Program Thread)
    (state : State Thread)
    (thread : Thread) : Prop :=
  match program.role thread with
  | .producer =>
      valuesOf thread state.produced =
          List.range' 1
            (state.rounds thread +
              (state.place thread).accessed.toNat) ∧
        valuesOf thread state.consumed = []
  | .consumer =>
      (valuesOf thread state.consumed).length =
          state.rounds thread +
            (state.place thread).accessed.toNat ∧
        state.added thread =
          CInt.total .int (valuesOf thread state.consumed) ∧
        valuesOf thread state.produced = []

/-- Moves that access nothing leave the account of a thread alone. -/
theorem Accounted.congr
    (accounted : Accounted program state thread)
    (produced :
      valuesOf thread later.produced = valuesOf thread state.produced)
    (consumed :
      valuesOf thread later.consumed = valuesOf thread state.consumed)
    (accesses :
      later.rounds thread + (later.place thread).accessed.toNat =
        state.rounds thread + (state.place thread).accessed.toNat)
    (added :
      program.role thread = .consumer →
      later.added thread = state.added thread) :
    Accounted program later thread := by
  unfold Accounted at accounted ⊢
  cases role : program.role thread with
  | producer =>
      simp only [role] at accounted ⊢
      rw [produced, consumed, accesses]
      exact accounted
  | consumer =>
      simp only [role] at accounted ⊢
      rw [produced, consumed, accesses, added role]
      exact accounted

/-- A producer has written one more item. -/
theorem Accounted.push
    (accounted : Accounted program state thread)
    (producer : program.role thread = .producer)
    (here : state.place thread = .bumping) :
    Accounted program
      { state.setPlace thread .unlocking with
        ring := state.ring.push program.slots.toNat
        produced :=
          state.produced ++ [(thread, state.rounds thread + 1)] }
      thread := by
  unfold Accounted at accounted ⊢
  simp only [producer] at accounted ⊢
  obtain ⟨written, nothing⟩ := accounted
  refine ⟨?_, nothing⟩
  rw [valuesOf_snoc, written, here, if_pos rfl]
  simp only [State.setPlace, Function.update_self, Place.accessed,
    Bool.toNat_false, Bool.toNat_true, Nat.add_zero,
    List.range'_1_concat, Nat.add_comm 1]

/-- A consumer has one more item to add. -/
theorem Accounted.advance
    (accounted : Accounted program state thread)
    (consumer : program.role thread = .consumer)
    (here : state.place thread = .bumping) :
    Accounted program
      { state.setPlace thread .unlocking with
        ring := state.ring.advance program.slots.toNat
        consumed := state.consumed ++ [(thread, state.item thread)] }
      thread := by
  unfold Accounted at accounted ⊢
  simp only [consumer] at accounted ⊢
  obtain ⟨read, added, nothing⟩ := accounted
  rw [valuesOf_snoc, if_pos rfl]
  refine ⟨?_, ?_, nothing⟩
  · rw [List.length_append, read, here]
    simp [State.setPlace, Place.accessed]
  · rw [CInt.total_concat, ← added]
    simp [State.added, State.setPlace, here, Place.accessed]

/-- Having posted changes no account. -/
theorem Accounted.leave
    (accounted : Accounted program state thread)
    {actor : Thread}
    (here : state.place actor = .posting) :
    Accounted program (state.leave program actor) thread := by
  obtain ⟨_, produced, consumed, item, sum⟩ :=
    State.leave_buffer program state actor
  refine accounted.congr (by rw [produced]) (by rw [consumed]) ?_ ?_
  · unfold State.leave
    by_cases itself : thread = actor
    · subst itself
      cases role : program.role thread <;>
        simp [State.finish, State.setPlace, here, Place.accessed]
    · cases role : program.role actor <;>
        simp [State.finish, State.setPlace, Function.update_of_ne itself]
  · intro consumer
    unfold State.added
    rw [item, sum, State.leave_place]
    by_cases itself : thread = actor
    · subst itself
      simp [consumer, here, Place.left, Place.accessed]
    · rw [Function.update_of_ne itself]

/-- Every move keeps the accounts. -/
theorem Accounted.step
    (accounted : Accounted program state thread)
    (move : Move program state later) :
    Accounted program later thread := by
  cases move with
  | begins actor here more
  | takes actor here testing available
  | lock actor here free
  | unlock actor here
  | callsPost actor here
  | store actor producer here =>
      refine accounted.congr rfl rfl ?_ ?_ <;>
        by_cases itself : thread = actor
      · subst itself
        simp [State.setPlace, State.setSem, here, Place.accessed]
      · simp [State.setPlace, State.setSem, Function.update_of_ne itself]
      · subst itself
        simp [State.added, State.setPlace, State.setSem, here,
          Place.accessed]
      · simp [State.added, State.setPlace, State.setSem,
          Function.update_of_ne itself]
  | sleeps actor here testing empty =>
      exact accounted.congr rfl rfl rfl (fun _ => rfl)
  | load actor consumer here =>
      refine accounted.congr rfl rfl ?_ ?_ <;>
        by_cases itself : thread = actor
      · subst itself
        simp [State.setPlace, here, Place.accessed]
      · simp [State.setPlace, Function.update_of_ne itself]
      · subst itself
        simp [State.added, State.setPlace, here, Place.accessed]
      · simp [State.added, State.setPlace, Function.update_of_ne itself]
  | add actor here =>
      refine accounted.congr rfl rfl ?_ ?_ <;>
        by_cases itself : thread = actor
      · subst itself
        simp [State.finish, State.setPlace, here, Place.accessed]
      · simp [State.finish, State.setPlace, Function.update_of_ne itself]
      · subst itself
        simp [State.added, State.finish, State.setPlace, here,
          Place.accessed]
      · simp [State.added, State.finish, State.setPlace,
          Function.update_of_ne itself]
  | posts actor targets here entered signals =>
      have quiet :
          Accounted program
            (state.setSem (program.role actor).other {
              (state.other program actor).ret actor
                (syncSemPost (state.other program actor).sem)
                  .post .success none with
              pc :=
                semCond.notify targets
                  (Function.update (state.other program actor).pc
                    actor .idle) })
            thread :=
        accounted.congr rfl rfl rfl (fun _ => rfl)
      exact quiet.leave here
  | push actor producer here =>
      by_cases itself : thread = actor
      · subst itself
        exact accounted.push producer here
      · refine accounted.congr ?_ rfl ?_ ?_
        · simp [valuesOf_snoc, Ne.symm itself]
        · simp [State.setPlace, Function.update_of_ne itself]
        · simp [State.added, State.setPlace,
            Function.update_of_ne itself]
  | advance actor consumer here =>
      by_cases itself : thread = actor
      · subst itself
        exact accounted.advance consumer here
      · refine accounted.congr rfl ?_ ?_ ?_
        · simp [valuesOf_snoc, Ne.symm itself]
        · simp [State.setPlace, Function.update_of_ne itself]
        · simp [State.added, State.setPlace,
            Function.update_of_ne itself]

/-- What holds at every point of a run. -/
structure Kept
    [Fintype Thread]
    (program : Program Thread)
    (state : State Thread) : Prop where
  tokens : Tokens program state
  locked : Locked state.place state.lock
  flow : Flow program state
  accounted : ∀ thread, Accounted program state thread

/-- It holds right after the initialisation. -/
theorem Kept.initial
    [Fintype Thread] :
    Kept program (initial program) := by
  have none :
      ∀ weight : Progress → Nat,
        (∀ role, weight ⟨role, .loop, 0⟩ = 0) →
        tally weight ((BoundedBuffer.initial program).progress program) =
          0 :=
    fun weight zero =>
      Finset.sum_eq_zero (fun thread _ => zero (program.role thread))
  have accesses :
      ∀ owner,
        (BoundedBuffer.initial program).accesses program owner = 0 := by
    intro owner
    exact none _ (fun role => by simp [Progress.accesses, Place.accessed])
  constructor
  · intro owner
    rw [State.taken, State.posted,
      none _ (fun role => by simp [Progress.takes, Place.taken]),
      none _ (fun role => by simp [Progress.posts, Place.posted])]
    rfl
  · intro thread
    simp [BoundedBuffer.initial, Place.inside]
  · constructor
    · exact (accesses .producer).symm
    · exact (accesses .consumer).symm
    · exact ⟨[], RingBuffer.holds_initial program.slots_pos 0, rfl⟩
    · intro thread _ bumping
      contradiction
    · intro thread _ bumping
      contradiction
  · intro thread
    unfold Accounted
    cases role : program.role thread <;>
      simp [BoundedBuffer.initial, valuesOf, State.added,
        Place.accessed]

/-- And from then on. -/
theorem reachable_kept
    [Fintype Thread]
    (reachable : (system program).Reachable state) :
    Kept program state := by
  refine reachable_of_move (Kept program) .initial ?_ ?_ reachable
  · intro before after _ kept move
    exact ⟨kept.tokens.step move, kept.locked.step move,
      kept.flow.step kept.locked kept.tokens move,
      fun thread => (kept.accounted thread).step move⟩
  · intro before owner thread _ kept
    have flow := kept.flow
    exact ⟨kept.tokens.disturb owner thread, kept.locked,
      ⟨flow.produced, flow.consumed, flow.queue, flow.stored,
        flow.loaded⟩,
      fun other =>
        (kept.accounted other).congr rfl rfl rfl (fun _ => rfl)⟩

omit [DecidableEq Thread] in
/-- A task has accessed the buffer at most once for each of its items. -/
theorem State.Limited.accesses_le
    (limited : state.Limited program)
    (thread : Thread) :
    state.rounds thread + (state.place thread).accessed.toNat ≤
      program.items thread := by
  obtain ⟨finished, inRound⟩ := limited thread
  simp only [State.progress] at finished inRound
  cases here : state.place thread with
  | loop =>
      exact finished
  | _ =>
      have more := inRound (by rw [here]; decide)
      simp only [Place.accessed, Bool.toNat_true, Bool.toNat_false]
      omega

/-- So what it has written is an `int`. -/
theorem Kept.produced_fit
    [Fintype Thread]
    (kept : Kept program state)
    (limited : state.Limited program)
    {access : Thread × Nat}
    (written : access ∈ state.produced) :
    IntType.int.Represents access.2 := by
  obtain ⟨thread, value⟩ := access
  have mine : value ∈ valuesOf thread state.produced := by
    simpa [valuesOf] using written
  have account := kept.accounted thread
  cases role : program.role thread with
  | producer =>
      simp only [Accounted, role] at account
      rw [account.1, List.mem_range'_1] at mine
      have most := limited.accesses_le thread
      exact (program.items_fit thread).of_le (by omega)
  | consumer =>
      simp only [Accounted, role] at account
      rw [account.2.2] at mine
      cases mine

/-- What the tasks may rely on, however they are interleaved. -/
structure Delivers
    (program : Program Thread)
    (state : State Thread) : Prop where
  exclusive :
    ∀ thread other,
      (state.place thread).inside = true →
      (state.place other).inside = true →
      other = thread
  room :
    ∀ thread,
      program.role thread = .producer →
      state.place thread = .access →
      state.ring.unread state.ring.input = false
  fresh :
    ∀ thread,
      program.role thread = .consumer →
      state.place thread = .access →
      state.ring.unread state.ring.output = true
  inOrder :
    state.consumed.map Prod.snd <+: state.produced.map Prod.snd
  bounded :
    state.produced.length ≤
      state.consumed.length + program.slots.toNat
  fit :
    ∀ access ∈ state.produced, IntType.int.Represents access.2
  written :
    ∀ thread,
      program.role thread = .producer →
      valuesOf thread state.produced =
        List.range' 1
          (state.rounds thread + (state.place thread).accessed.toNat)
  read :
    ∀ thread,
      program.role thread = .consumer →
      (valuesOf thread state.consumed).length =
        state.rounds thread + (state.place thread).accessed.toNat
  added :
    ∀ thread,
      program.role thread = .consumer →
      ((state.added thread).Is (valuesOf thread state.consumed).sum ↔
        IntType.int.Represents (valuesOf thread state.consumed).sum)

/--
No value is overwritten before it has been read and none is read twice: in every
run the values read are the first values written, in the order of the writes.
-/
theorem reachable_delivers
    [Fintype Thread]
    (reachable : (system program).Reachable state) :
    Delivers program state := by
  obtain ⟨tokens, locked, flow, accounted⟩ := reachable_kept reachable
  obtain ⟨queue, holds, values⟩ := flow.queue
  have lengths := flow.length values
  constructor
  · intro thread other here there
    exact locked.exclusive here there
  · intro thread producer here
    have less :=
      tokens.room producer (by rw [here]; rfl) (by rw [here]; rfl)
    exact holds.input_read (by omega)
  · intro thread consumer here
    have less :=
      tokens.available consumer (by rw [here]; rfl) (by rw [here]; rfl)
    obtain ⟨value, rest, rfl⟩ :=
      List.exists_cons_of_length_pos
        (show 0 < queue.length by omega)
    exact holds.output_unread
  · exact ⟨queue, values.symm⟩
  · have bound := tokens.bound
    rw [flow.produced, flow.consumed, Nat.add_comm]
    exact bound.2
  · intro access written
    exact (reachable_kept reachable).produced_fit
      (reachable_limited reachable) written
  · intro thread producer
    have account := accounted thread
    simp only [Accounted, producer] at account
    exact account.1
  · intro thread consumer
    have account := accounted thread
    simp only [Accounted, consumer] at account
    exact account.1
  · intro thread consumer
    have account := accounted thread
    simp only [Accounted, consumer] at account
    rw [account.2.1]
    exact CInt.total_is_iff

end

/-- Two items of the example have been read, and one of them added. -/
theorem reachable_delivers_two :
    ∃ state : State Bool,
      (system exampleSemaphore).Reachable state ∧
        state.produced = [(false, 1), (false, 2)] ∧
        state.consumed = [(true, 1), (true, 2)] ∧
        (state.sum true).Is 1 ∧
        (state.added true).Is 3 ∧
        Delivers exampleSemaphore state := by
  have start : (system exampleSemaphore).Reachable _ := .start rfl
  have first :=
    reachable_producerRound start false rfl rfl rfl (by decide)
      (by rintro ⟨⟩ <;> rfl) (by decide) rfl
  have second :=
    reachable_producerRound first false rfl rfl rfl (by decide)
      (by rintro ⟨⟩ <;> rfl) (by decide) (funext (by decide))
  have third :=
    reachable_consumerRound second true rfl rfl rfl (by decide)
      (by rintro ⟨⟩ <;> rfl) (by decide) (funext (by decide))
  have takes :=
    reachable_take third true rfl (by decide) rfl (by decide)
  have reads := reachable_consume takes true rfl rfl rfl
  exact ⟨_, reads, rfl, rfl, ⟨by decide, by decide⟩,
    ⟨by decide, by decide⟩, reachable_delivers reads⟩

end SThread.Examples.BoundedBuffer
