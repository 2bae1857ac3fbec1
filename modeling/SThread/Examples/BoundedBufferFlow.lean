import SThread.Examples.BoundedBufferMoves

namespace SThread.Examples.BoundedBuffer

open SThread.Library
open SThread.Sync
open SThread.Sync.HandOff (Party credit)

/-!
# What goes through the buffer

The tokens that the tasks have taken and put back bound how far the producers
are ahead of the consumers, so there is always room to write and something to
read.  The mutex keeps the accesses apart, and the values are read in the order
in which they were written.
-/

/-- How far a thread has got. -/
structure Progress where
  role : Party
  place : Place
  rounds : Nat

namespace Progress

/-- The tokens a thread has taken from a semaphore. -/
def takes
    (owner : Party)
    (progress : Progress) : Nat :=
  if progress.role = owner then
    progress.rounds + progress.place.taken.toNat
  else
    0

/-- The tokens it has put into it. -/
def posts
    (owner : Party)
    (progress : Progress) : Nat :=
  if progress.role = owner.other then
    progress.rounds + progress.place.posted.toNat
  else
    0

/-- How often it has accessed the buffer in a role. -/
def accesses
    (owner : Party)
    (progress : Progress) : Nat :=
  if progress.role = owner then
    progress.rounds + progress.place.accessed.toNat
  else
    0

/-- How far a thread has got once it has posted. -/
def left
    (progress : Progress) : Progress :=
  match progress.role with
  | .producer => ⟨.producer, .loop, progress.rounds + 1⟩
  | .consumer => ⟨.consumer, .adding, progress.rounds⟩

/-- It is in the middle of no access then. -/
theorem left_place
    (progress : Progress) :
    progress.left.place ≠ .bumping := by
  obtain ⟨role, place, rounds⟩ := progress
  cases role <;> simp [left]

/-- Nobody posts before the access. -/
theorem posts_le_accesses
    (owner : Party)
    (progress : Progress) :
    progress.posts owner ≤ progress.accesses owner.other := by
  unfold posts accesses
  split
  · cases progress.place <;> simp [Place.posted, Place.accessed]
  · exact Nat.zero_le _

/-- Nor accesses the buffer before the wait. -/
theorem accesses_le_takes
    (owner : Party)
    (progress : Progress) :
    progress.accesses owner ≤ progress.takes owner := by
  unfold accesses takes
  split
  · cases progress.place <;> simp [Place.accessed, Place.taken]
  · exact Nat.zero_le _

end Progress

section

variable
    {Thread : Type}

/-- How far the threads have got. -/
def State.progress
    (program : Program Thread)
    (state : State Thread)
    (thread : Thread) : Progress where
  role := program.role thread
  place := state.place thread
  rounds := state.rounds thread

/-- The counter of a semaphore. -/
def State.counter
    (state : State Thread)
    (owner : Party) : Nat :=
  (state.sems owner).sem.count.toNat

variable
    [Fintype Thread]

/-- The tokens taken from a semaphore so far. -/
def State.taken
    (program : Program Thread)
    (state : State Thread)
    (owner : Party) : Nat :=
  tally (Progress.takes owner) (state.progress program)

/-- The tokens put into it so far. -/
def State.posted
    (program : Program Thread)
    (state : State Thread)
    (owner : Party) : Nat :=
  tally (Progress.posts owner) (state.progress program)

/-- The accesses in a role so far. -/
def State.accesses
    (program : Program Thread)
    (state : State Thread)
    (owner : Party) : Nat :=
  tally (Progress.accesses owner) (state.progress program)

/-- No token is lost or invented. -/
def Tokens
    (program : Program Thread)
    (state : State Thread) : Prop :=
  ∀ owner,
    state.counter owner + state.taken program owner =
      (credit program.slots owner).toNat + state.posted program owner

/-- Whoever posts has accessed the buffer before. -/
theorem State.posted_le
    (program : Program Thread)
    (state : State Thread)
    (owner : Party) :
    state.posted program owner ≤ state.accesses program owner.other :=
  tally_le _ (Progress.posts_le_accesses owner)

/-- Whoever accesses the buffer has waited before. -/
theorem State.accesses_le
    (program : Program Thread)
    (state : State Thread)
    (owner : Party) :
    state.accesses program owner ≤ state.taken program owner :=
  tally_le _ (Progress.accesses_le_takes owner)

variable
    {program : Program Thread}
    {state : State Thread}
    {thread : Thread}

/-- At its access a thread has a token for it. -/
theorem State.accesses_lt
    (program : Program Thread)
    (owed : (state.place thread).accessed = false)
    (holds : (state.place thread).taken = true) :
    state.accesses program (program.role thread) <
      state.taken program (program.role thread) := by
  refine tally_lt (Progress.accesses_le_takes _) thread ?_
  simp [Progress.accesses, Progress.takes, State.progress, owed, holds]

/-- At its post a thread owes a token. -/
theorem State.posted_lt
    (program : Program Thread)
    (owed : (state.place thread).posted = false)
    (holds : (state.place thread).accessed = true) :
    state.posted program (program.role thread).other <
      state.accesses program (program.role thread) := by
  have less :
      tally (Progress.posts (program.role thread).other)
          (state.progress program) <
        tally (Progress.accesses (program.role thread).other.other)
          (state.progress program) := by
    refine tally_lt (Progress.posts_le_accesses _) thread ?_
    simp [Progress.posts, Progress.accesses, State.progress, owed, holds]
  rwa [HandOff.Party.other_other] at less

/-- At its access a producer has room in the buffer. -/
theorem Tokens.room
    (tokens : Tokens program state)
    (producer : program.role thread = .producer)
    (owed : (state.place thread).accessed = false)
    (holds : (state.place thread).taken = true) :
    state.accesses program .producer <
      program.slots.toNat + state.accesses program .consumer := by
  have less := State.accesses_lt program owed holds
  have balance := tokens .producer
  have behind := state.posted_le program .producer
  rw [producer] at less
  simp only [credit, Party.other] at balance behind
  omega

/-- At its access a consumer is behind the producers. -/
theorem Tokens.available
    (tokens : Tokens program state)
    (consumer : program.role thread = .consumer)
    (owed : (state.place thread).accessed = false)
    (holds : (state.place thread).taken = true) :
    state.accesses program .consumer <
      state.accesses program .producer := by
  have less := State.accesses_lt program owed holds
  have balance := tokens .consumer
  have behind := state.posted_le program .consumer
  rw [consumer] at less
  simp only [credit, Party.other, UInt32.toNat_zero] at balance behind
  omega

/-- The producers are never further ahead than there are slots. -/
theorem Tokens.bound
    (tokens : Tokens program state) :
    state.accesses program .consumer ≤ state.accesses program .producer ∧
      state.accesses program .producer ≤
        program.slots.toNat + state.accesses program .consumer := by
  have space := tokens .producer
  have items := tokens .consumer
  have producers := state.accesses_le program .producer
  have consumers := state.accesses_le program .consumer
  have spaceBehind := state.posted_le program .producer
  have itemsBehind := state.posted_le program .consumer
  simp only [credit, Party.other, UInt32.toNat_zero]
    at space items spaceBehind itemsBehind
  omega

/-- A post finds room in the counter. -/
theorem Tokens.post
    (tokens : Tokens program state)
    (here : state.place thread = .posting) :
    (syncSemPost
        (state.sems (program.role thread).other).sem).count.toNat =
      state.counter (program.role thread).other + 1 := by
  have owed :=
    State.posted_lt program
      (show (state.place thread).posted = false by rw [here]; rfl)
      (by rw [here]; rfl)
  have space := tokens .producer
  have items := tokens .consumer
  have producers := state.accesses_le program .producer
  have consumers := state.accesses_le program .consumer
  have spaceBehind := state.posted_le program .producer
  have itemsBehind := state.posted_le program .consumer
  have small := program.slots.toNat_lt
  rw [syncSemPost_toNat, Nat.mod_eq_of_lt]
  · rfl
  · simp only [State.counter, credit, Party.other, UInt32.toNat_zero]
      at space items spaceBehind itemsBehind
    cases role : program.role thread <;>
      rw [role] at owed <;>
      simp only [Party.other] at owed ⊢ <;>
      omega

section Steps

variable
    [DecidableEq Thread]
    {later : State Thread}

omit [Fintype Thread] in
/-- Moving a thread in its loop. -/
theorem State.progress_setPlace
    (program : Program Thread)
    (state : State Thread)
    (thread : Thread)
    (place : Place) :
    (state.setPlace thread place).progress program =
      Function.update (state.progress program) thread
        ⟨program.role thread, place, state.rounds thread⟩ := by
  funext other
  by_cases itself : other = thread
  · subst itself
    simp [State.progress, State.setPlace]
  · simp [State.progress, State.setPlace,
      Function.update_of_ne itself]

omit [Fintype Thread] in
/-- Finishing a round. -/
theorem State.progress_finish
    (program : Program Thread)
    (state : State Thread)
    (thread : Thread) :
    (state.finish thread).progress program =
      Function.update (state.progress program) thread
        ⟨program.role thread, .loop, state.rounds thread + 1⟩ := by
  funext other
  by_cases itself : other = thread
  · subst itself
    simp [State.progress, State.finish, State.setPlace]
  · simp [State.progress, State.finish, State.setPlace,
      Function.update_of_ne itself]

/-- Steps that take and put back no token leave the tokens where they are. -/
theorem Tokens.of_progress
    (tokens : Tokens program state)
    {after : Progress}
    (counters : ∀ owner, later.counter owner = state.counter owner)
    (progress :
      later.progress program =
        Function.update (state.progress program) thread after)
    (takes :
      ∀ owner,
        after.takes owner = (state.progress program thread).takes owner)
    (posts :
      ∀ owner,
        after.posts owner = (state.progress program thread).posts owner) :
    Tokens program later := by
  intro owner
  have balance := tokens owner
  rw [State.taken, State.posted] at balance ⊢
  rw [counters owner, progress, tally_update_same (takes owner),
    tally_update_same (posts owner)]
  exact balance

omit [Fintype Thread] in
/-- A semaphore keeps its counter when its threads move. -/
theorem State.counter_setPc
    (state : State Thread)
    (owner : Party)
    (thread : Thread)
    (pc : Pc)
    (some : Party) :
    (state.setSem owner
        ((state.sems owner).setPc thread pc)).counter some =
      state.counter some := by
  by_cases same : some = owner
  · subst same
    simp [State.counter, State.setSem, Sync.State.setPc]
  · simp [State.counter, State.setSem, Function.update_of_ne same]

/-- A wait takes a token out of the counter. -/
theorem Tokens.take
    (tokens : Tokens program state)
    (here : state.place thread = .waiting)
    (available : (state.own program thread).sem.count ≠ 0) :
    Tokens program
      ((state.setSem (program.role thread)
        ((state.own program thread).ret thread
          (state.own program thread).sem.take
            .wait .success none)).setPlace thread .locking) := by
  intro owner
  have balance := tokens owner
  have taken :=
    tally_update (Progress.takes owner) (state.progress program) thread
      ⟨program.role thread, .locking, state.rounds thread⟩
  have posted :
      tally (Progress.posts owner)
          (Function.update (state.progress program) thread
            ⟨program.role thread, .locking, state.rounds thread⟩) =
        tally (Progress.posts owner) (state.progress program) :=
    tally_update_same (by
      simp [Progress.posts, State.progress, here, Place.posted])
  rw [State.taken, State.posted, State.progress_setPlace]
  change
    _ + tally _ (Function.update (state.progress program) thread _) =
      _ + tally _ (Function.update (state.progress program) thread _)
  rw [State.taken, State.posted] at balance
  have lowered := SyncSem.take_toNat available
  by_cases same : owner = program.role thread
  · subst same
    simp [Progress.takes, State.progress, here, Place.taken] at taken
    simp [State.counter, State.setSem, State.setPlace,
      State.own] at balance lowered ⊢
    omega
  · have notOwn : ¬ program.role thread = owner := fun eq => same eq.symm
    simp [Progress.takes, State.progress, notOwn] at taken
    simp [State.counter, State.setSem, State.setPlace,
      Function.update_of_ne same] at balance ⊢
    omega

omit [Fintype Thread] in
/-- Behind its post. -/
theorem State.progress_leave
    (program : Program Thread)
    (state : State Thread)
    (thread : Thread) :
    (state.leave program thread).progress program =
      Function.update (state.progress program) thread
        (state.progress program thread).left := by
  unfold State.leave Progress.left
  cases role : program.role thread with
  | producer =>
      simp [State.progress_finish, State.progress, role]
  | consumer =>
      simp [State.progress_setPlace, State.progress, role]

/-- A post puts a token into the other counter. -/
theorem Tokens.put
    (tokens : Tokens program state)
    (here : state.place thread = .posting)
    (pcs : Thread → Pc) :
    Tokens program
      ((state.setSem (program.role thread).other {
        (state.other program thread).ret thread
          (syncSemPost (state.other program thread).sem)
            .post .success none with
        pc := pcs }).leave program thread) := by
  have raised := tokens.post here
  intro owner
  have balance := tokens owner
  have posted :=
    tally_update (Progress.posts owner) (state.progress program) thread
      (state.progress program thread).left
  have taken :
      tally (Progress.takes owner)
          (Function.update (state.progress program) thread
            (state.progress program thread).left) =
        tally (Progress.takes owner) (state.progress program) :=
    tally_update_same (by
      unfold Progress.left
      cases role : program.role thread <;>
        simp [Progress.takes, State.progress, role, here, Place.taken])
  rw [State.taken, State.posted, State.progress_leave]
  change
    _ + tally _
        (Function.update (state.progress program) thread
          (state.progress program thread).left) =
      _ + tally _
        (Function.update (state.progress program) thread
          (state.progress program thread).left)
  rw [State.taken, State.posted] at balance
  rw [State.counter, State.leave_sems]
  by_cases same : owner = (program.role thread).other
  · subst same
    have more :
        (state.progress program thread).left.posts
            (program.role thread).other =
          (state.progress program thread).posts
            (program.role thread).other + 1 := by
      unfold Progress.left
      cases role : program.role thread <;>
        simp [Progress.posts, State.progress, role, here,
          Place.posted, Party.other]
    simp only [State.counter] at raised balance
    simp only [State.setSem, Function.update_self, Sync.State.ret,
      State.other] at raised ⊢
    omega
  · have notOther : ¬ program.role thread = owner.other := by
      intro eq
      rw [eq, HandOff.Party.other_other] at same
      exact same rfl
    have none :
        (state.progress program thread).left.posts owner =
          (state.progress program thread).posts owner := by
      unfold Progress.left
      cases role : program.role thread <;>
        rw [role] at notOther <;>
        simp [Progress.posts, State.progress, role, notOther]
    simp only [State.counter] at balance
    simp only [State.setSem, Function.update_of_ne same]
    omega

/-- Every move keeps the tokens. -/
theorem Tokens.step
    (tokens : Tokens program state)
    (move : Move program state later) :
    Tokens program later := by
  cases move with
  | begins thread here more =>
      refine tokens.of_progress (state.counter_setPc _ thread _)
        (state.progress_setPlace program thread .waiting) ?_ ?_
      · intro owner
        simp [Progress.takes, State.progress, here, Place.taken]
      · intro owner
        simp [Progress.posts, State.progress, here, Place.posted]
  | sleeps thread here testing empty =>
      intro owner
      have same :=
        state.counter_setPc (program.role thread) thread
          (.waiting .asleep) owner
      exact same.symm ▸ tokens owner
  | takes thread here testing available =>
      exact tokens.take here available
  | lock thread here free
  | store thread producer here
  | push thread producer here
  | load thread consumer here
  | advance thread consumer here
  | unlock thread here =>
      refine tokens.of_progress (fun _ => rfl)
        (state.progress_setPlace program thread _) ?_ ?_
      · intro owner
        simp [Progress.takes, State.progress, here, Place.taken]
      · intro owner
        simp [Progress.posts, State.progress, here, Place.posted]
  | callsPost thread here =>
      refine tokens.of_progress (state.counter_setPc _ thread _)
        (state.progress_setPlace program thread .posting) ?_ ?_
      · intro owner
        simp [Progress.takes, State.progress, here, Place.taken]
      · intro owner
        simp [Progress.posts, State.progress, here, Place.posted]
  | posts thread targets here entered signals =>
      exact tokens.put here _
  | add thread here =>
      refine tokens.of_progress (fun _ => rfl)
        (state.progress_finish program thread) ?_ ?_
      · intro owner
        simp [Progress.takes, State.progress, here, Place.taken]
      · intro owner
        simp [Progress.posts, State.progress, here, Place.posted]

/-- So does a spurious wake-up. -/
theorem Tokens.disturb
    (tokens : Tokens program state)
    (owner : Party)
    (thread : Thread) :
    Tokens program (state.disturb owner thread) := by
  intro some
  have same :=
    state.counter_setPc owner thread (.waiting .spurious) some
  exact same.symm ▸ tokens some

/-- A thread is inside the mutex exactly when it holds it. -/
def Locked
    (places : Thread → Place)
    (lock : Option Thread) : Prop :=
  ∀ thread,
    (places thread).inside = true ↔ lock = some thread

omit [Fintype Thread] in
/-- A thread moves without crossing the mutex. -/
theorem Locked.update
    {places : Thread → Place}
    {lock : Option Thread}
    (locked : Locked places lock)
    {place : Place}
    (same : place.inside = (places thread).inside) :
    Locked (Function.update places thread place) lock := by
  intro other
  by_cases itself : other = thread
  · subst itself
    rw [Function.update_self, same]
    exact locked other
  · rw [Function.update_of_ne itself]
    exact locked other

omit [Fintype Thread] in
/-- Every move keeps the accesses apart. -/
theorem Locked.step
    (locked : Locked state.place state.lock)
    (move : Move program state later) :
    Locked later.place later.lock := by
  cases move with
  | begins thread here more
  | takes thread here testing available
  | callsPost thread here
  | store thread producer here
  | push thread producer here
  | load thread consumer here
  | advance thread consumer here
  | add thread here =>
      exact locked.update (by rw [here]; rfl)
  | sleeps thread here testing empty =>
      exact locked
  | posts thread targets here entered signals =>
      rw [State.leave_place, State.leave_lock]
      exact locked.update
        (by rw [here]; cases program.role thread <;> rfl)
  | lock thread here free =>
      intro other
      by_cases itself : other = thread
      · subst itself
        simp [State.setPlace, Place.inside]
      · have outside := (locked other).not.mpr (by rw [free]; simp)
        simp only [State.setPlace, Function.update_of_ne itself]
        constructor
        · intro inside
          exact (outside inside).elim
        · intro same
          exact (itself (Option.some.inj same).symm).elim
  | unlock thread here =>
      have holds := (locked thread).mp (by rw [here]; rfl)
      intro other
      by_cases itself : other = thread
      · subst itself
        simp [State.setPlace, Place.inside]
      · simp only [State.setPlace, Function.update_of_ne itself]
        constructor
        · intro inside
          have same := (locked other).mp inside
          rw [holds] at same
          exact (itself (Option.some.inj same).symm).elim
        · intro none
          contradiction

/-- What has been written and what has been read. -/
structure Flow
    (program : Program Thread)
    (state : State Thread) : Prop where
  produced :
    state.produced.length = state.accesses program .producer
  consumed :
    state.consumed.length = state.accesses program .consumer
  queue :
    ∃ queue,
      state.ring.Holds program.slots.toNat queue ∧
        state.produced.map Prod.snd =
          state.consumed.map Prod.snd ++ queue
  stored :
    ∀ thread,
      program.role thread = .producer →
      state.place thread = .bumping →
      state.ring.slots state.ring.input = state.rounds thread + 1
  loaded :
    ∀ thread,
      program.role thread = .consumer →
      state.place thread = .bumping →
      state.item thread = state.ring.next

omit [DecidableEq Thread] in
/-- As many values are unread as the producers are ahead. -/
theorem Flow.length
    (flow : Flow program state)
    {queue : List Nat}
    (values :
      state.produced.map Prod.snd =
        state.consumed.map Prod.snd ++ queue) :
    state.accesses program .producer =
      state.accesses program .consumer + queue.length := by
  have lengths := congrArg List.length values
  rw [List.length_append, List.length_map, List.length_map] at lengths
  rw [← flow.produced, ← flow.consumed]
  exact lengths

/-- Moves away from the buffer leave it alone. -/
theorem Flow.quiet
    (flow : Flow program state)
    {after : Progress}
    (ring : later.ring = state.ring)
    (produced : later.produced = state.produced)
    (consumed : later.consumed = state.consumed)
    (item : later.item = state.item)
    (progress :
      later.progress program =
        Function.update (state.progress program) thread after)
    (accesses :
      ∀ owner,
        after.accesses owner =
          (state.progress program thread).accesses owner)
    (place : after.place ≠ .bumping) :
    Flow program later := by
  have same :
      ∀ owner,
        later.accesses program owner = state.accesses program owner := by
    intro owner
    rw [State.accesses, progress, tally_update_same (accesses owner)]
    rfl
  have others :
      ∀ other,
        later.place other = .bumping →
        state.place other = .bumping ∧
          later.rounds other = state.rounds other := by
    intro other here
    have here' := congrFun progress other
    by_cases itself : other = thread
    · subst itself
      rw [Function.update_self] at here'
      exact (place (here' ▸ here)).elim
    · rw [Function.update_of_ne itself] at here'
      have samePlace : later.place other = state.place other :=
        congrArg Progress.place here'
      exact ⟨samePlace ▸ here, congrArg Progress.rounds here'⟩
  constructor
  · rw [produced, same]
    exact flow.produced
  · rw [consumed, same]
    exact flow.consumed
  · rw [ring, produced, consumed]
    exact flow.queue
  · intro other producer here
    obtain ⟨before, rounds⟩ := others other here
    rw [ring, rounds]
    exact flow.stored other producer before
  · intro other consumer here
    rw [item, ring]
    exact flow.loaded other consumer (others other here).1

omit [Fintype Thread] [DecidableEq Thread] in
/-- Only one thread is inside the mutex. -/
theorem Locked.exclusive
    (locked : Locked state.place state.lock)
    {other : Thread}
    (here : (state.place thread).inside = true)
    (there : (state.place other).inside = true) :
    other = thread := by
  have holds := (locked thread).mp here
  rw [(locked other).mp there] at holds
  exact Option.some.inj holds

omit [Fintype Thread] in
/-- Where one thread is inside the mutex nobody else is in the middle of an access. -/
theorem Locked.not_bumping
    (locked : Locked state.place state.lock)
    {place : Place}
    {other : Thread}
    (here : (state.place thread).inside = true)
    (different : other ≠ thread) :
    Function.update state.place thread place other ≠ .bumping := by
  intro there
  rw [Function.update_of_ne different] at there
  exact different (locked.exclusive here (by rw [there]; rfl))

/-- Half an access is none. -/
theorem State.accesses_bumping
    (program : Program Thread)
    (here : state.place thread = .access)
    (owner : Party) :
    (state.setPlace thread .bumping).accesses program owner =
      state.accesses program owner := by
  rw [State.accesses, State.progress_setPlace]
  exact tally_update_same (by
    simp [Progress.accesses, State.progress, here, Place.accessed])

/-- The second half makes it one more. -/
theorem State.accesses_unlocking
    (program : Program Thread)
    (here : state.place thread = .bumping)
    (owner : Party) :
    (state.setPlace thread .unlocking).accesses program owner =
      state.accesses program owner +
        (decide (program.role thread = owner)).toNat := by
  have moved :=
    tally_update (Progress.accesses owner) (state.progress program)
      thread ⟨program.role thread, .unlocking, state.rounds thread⟩
  rw [State.accesses, State.accesses, State.progress_setPlace]
  by_cases isOwner : program.role thread = owner <;>
    simp [Progress.accesses, State.progress, here, isOwner,
      Place.accessed] at moved ⊢ <;>
    omega

/-- A producer writes where nothing unread is. -/
theorem Flow.store
    (flow : Flow program state)
    (locked : Locked state.place state.lock)
    (tokens : Tokens program state)
    (producer : program.role thread = .producer)
    (here : state.place thread = .access) :
    Flow program
      { state.setPlace thread .bumping with
        ring := state.ring.store (state.rounds thread + 1) } := by
  have inside : (state.place thread).inside = true := by
    rw [here]
    rfl
  have same := State.accesses_bumping program here
  obtain ⟨queue, holds, values⟩ := flow.queue
  have room := tokens.room producer (by rw [here]; rfl) (by rw [here]; rfl)
  rw [flow.length values] at room
  constructor
  · exact flow.produced.trans (same .producer).symm
  · exact flow.consumed.trans (same .consumer).symm
  · exact ⟨queue, holds.store (by omega) _, values⟩
  · intro other _ bumping
    by_cases itself : other = thread
    · subst itself
      simp [RingBuffer.store, State.setPlace]
    · exact (locked.not_bumping inside itself bumping).elim
  · intro other consumer bumping
    by_cases itself : other = thread
    · subst itself
      rw [producer] at consumer
      contradiction
    · exact (locked.not_bumping inside itself bumping).elim

/-- With that the value is the last of the queue. -/
theorem Flow.push
    (flow : Flow program state)
    (locked : Locked state.place state.lock)
    (tokens : Tokens program state)
    (producer : program.role thread = .producer)
    (here : state.place thread = .bumping) :
    Flow program
      { state.setPlace thread .unlocking with
        ring := state.ring.push program.slots.toNat
        produced :=
          state.produced ++ [(thread, state.rounds thread + 1)] } := by
  have inside : (state.place thread).inside = true := by
    rw [here]
    rfl
  have more := State.accesses_unlocking program here
  rw [producer] at more
  obtain ⟨queue, holds, values⟩ := flow.queue
  have room := tokens.room producer (by rw [here]; rfl) (by rw [here]; rfl)
  rw [flow.length values] at room
  have stored := flow.stored thread producer here
  constructor
  · have longer := more .producer
    simp only [List.length_append, List.length_singleton]
    rw [flow.produced]
    exact longer.symm
  · exact flow.consumed.trans (more .consumer).symm
  · refine ⟨queue ++ [state.rounds thread + 1],
      holds.push (by omega) stored, ?_⟩
    simp only [List.map_append, values, List.map_cons, List.map_nil,
      List.append_assoc]
    rfl
  · intro other _ bumping
    by_cases itself : other = thread
    · subst itself
      simp [State.setPlace] at bumping
    · exact (locked.not_bumping inside itself bumping).elim
  · intro other _ bumping
    by_cases itself : other = thread
    · subst itself
      simp [State.setPlace] at bumping
    · exact (locked.not_bumping inside itself bumping).elim

/-- A consumer reads the value that is next. -/
theorem Flow.load
    (flow : Flow program state)
    (locked : Locked state.place state.lock)
    (consumer : program.role thread = .consumer)
    (here : state.place thread = .access) :
    Flow program
      { state.setPlace thread .bumping with
        item := Function.update state.item thread state.ring.next } := by
  have inside : (state.place thread).inside = true := by
    rw [here]
    rfl
  have same := State.accesses_bumping program here
  constructor
  · exact flow.produced.trans (same .producer).symm
  · exact flow.consumed.trans (same .consumer).symm
  · exact flow.queue
  · intro other producer bumping
    by_cases itself : other = thread
    · subst itself
      rw [consumer] at producer
      contradiction
    · exact (locked.not_bumping inside itself bumping).elim
  · intro other _ bumping
    by_cases itself : other = thread
    · subst itself
      simp [State.setPlace]
    · exact (locked.not_bumping inside itself bumping).elim

/-- With that it is done with the oldest value. -/
theorem Flow.advance
    (flow : Flow program state)
    (locked : Locked state.place state.lock)
    (tokens : Tokens program state)
    (consumer : program.role thread = .consumer)
    (here : state.place thread = .bumping) :
    Flow program
      { state.setPlace thread .unlocking with
        ring := state.ring.advance program.slots.toNat
        consumed := state.consumed ++ [(thread, state.item thread)] } := by
  have inside : (state.place thread).inside = true := by
    rw [here]
    rfl
  have more := State.accesses_unlocking program here
  rw [consumer] at more
  obtain ⟨queue, holds, values⟩ := flow.queue
  have available :=
    tokens.available consumer (by rw [here]; rfl) (by rw [here]; rfl)
  rw [flow.length values] at available
  obtain ⟨value, rest, rfl⟩ :=
    List.exists_cons_of_length_pos
      (show 0 < queue.length by omega)
  have loaded := (flow.loaded thread consumer here).trans holds.next
  constructor
  · exact flow.produced.trans (more .producer).symm
  · have longer := more .consumer
    simp only [List.length_append, List.length_singleton]
    rw [flow.consumed]
    exact longer.symm
  · refine ⟨rest, holds.advance, ?_⟩
    rw [List.map_append, List.map_singleton, loaded,
      List.append_assoc]
    exact values
  · intro other _ bumping
    by_cases itself : other = thread
    · subst itself
      simp [State.setPlace] at bumping
    · exact (locked.not_bumping inside itself bumping).elim
  · intro other _ bumping
    by_cases itself : other = thread
    · subst itself
      simp [State.setPlace] at bumping
    · exact (locked.not_bumping inside itself bumping).elim

/-- Every move keeps the flow. -/
theorem Flow.step
    (flow : Flow program state)
    (locked : Locked state.place state.lock)
    (tokens : Tokens program state)
    (move : Move program state later) :
    Flow program later := by
  cases move with
  | begins thread here more
  | takes thread here testing available
  | lock thread here free
  | unlock thread here
  | callsPost thread here =>
      refine flow.quiet rfl rfl rfl rfl
        (state.progress_setPlace program thread _) ?_ (by rintro ⟨⟩)
      intro owner
      simp [Progress.accesses, State.progress, here, Place.accessed]
  | add thread here =>
      refine flow.quiet rfl rfl rfl rfl
        (state.progress_finish program thread) ?_ (by rintro ⟨⟩)
      intro owner
      simp [Progress.accesses, State.progress, here, Place.accessed]
  | posts thread targets here entered signals =>
      obtain ⟨ring, produced, consumed, item, _⟩ :=
        State.leave_buffer program
          (state.setSem (program.role thread).other {
            (state.other program thread).ret thread
              (syncSemPost (state.other program thread).sem)
                .post .success none with
            pc :=
              semCond.notify targets
                (Function.update (state.other program thread).pc
                  thread .idle) })
          thread
      refine flow.quiet ring produced consumed item
        (State.progress_leave program _ thread) ?_ ?_
      · intro owner
        unfold Progress.left
        cases role : program.role thread <;>
          simp [Progress.accesses, State.progress, State.setSem, role,
            here, Place.accessed]
      · exact Progress.left_place _
  | sleeps thread here testing empty =>
      exact ⟨flow.produced, flow.consumed, flow.queue, flow.stored,
        flow.loaded⟩
  | store thread producer here =>
      exact flow.store locked tokens producer here
  | push thread producer here =>
      exact flow.push locked tokens producer here
  | load thread consumer here =>
      exact flow.load locked consumer here
  | advance thread consumer here =>
      exact flow.advance locked tokens consumer here

end Steps

end

end SThread.Examples.BoundedBuffer
