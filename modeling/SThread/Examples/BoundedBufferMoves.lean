import SThread.Examples.BoundedBuffer

namespace SThread.Examples.BoundedBuffer

open SThread.Library
open SThread.Sync
open SThread.Sync.HandOff (Party fits fits_outside fits_wake outside)

/-!
# The moves of the tasks

Where a task is in its loop says where it is in the two semaphores, and so what
a step of a semaphore can be.  `Move` lists what is left, and what it does to
the rest of the state.
-/

/-- The call a thread is in, in the words of the hand-off. -/
def Place.called : Place → HandOff.Place
  | .waiting => .waiting
  | .posting => .posting
  | _ => .loop

/-- Each thread is in both semaphores where its place says, and they are initialised. -/
structure Control
    {Thread : Type}
    (program : Program Thread)
    (sems : Party → Sync.State Thread)
    (place : Thread → Place) : Prop where
  initialized :
    ∀ owner, (sems owner).sem.initialized = true
  placed :
    ∀ owner thread,
      fits (decide (owner = program.role thread))
          (place thread).called ((sems owner).pc thread) =
        true

section

variable
    {Thread : Type}
    [DecidableEq Thread]
    {program : Program Thread}
    {state later : State Thread}

namespace State

/-- The semaphore a thread waits on. -/
def own
    (program : Program Thread)
    (state : State Thread)
    (thread : Thread) : Sync.State Thread :=
  state.sems (program.role thread)

/-- The semaphore a thread posts. -/
def other
    (program : Program Thread)
    (state : State Thread)
    (thread : Thread) : Sync.State Thread :=
  state.sems (program.role thread).other

/-- A thread that has posted goes on. -/
def leave
    (program : Program Thread)
    (state : State Thread)
    (thread : Thread) : State Thread :=
  match program.role thread with
  | .producer => state.finish thread
  | .consumer => state.setPlace thread .adding

end State

/-- An act, once it is known where the threads are in the semaphores. -/
inductive Move
    (program : Program Thread)
    (state : State Thread) :
    State Thread → Prop where
  | begins
      (thread : Thread)
      (here : state.place thread = .loop)
      (more : state.rounds thread < program.items thread) :
      Move program state
        ((state.setSem (program.role thread)
          ((state.own program thread).setPc thread .waitEnter)).setPlace
            thread .waiting)
  | sleeps
      (thread : Thread)
      (here : state.place thread = .waiting)
      (testing :
        ((state.own program thread).pc thread).atWaitTest = true)
      (empty : (state.own program thread).sem.count = 0) :
      Move program state
        (state.setSem (program.role thread)
          ((state.own program thread).setPc thread (.waiting .asleep)))
  | takes
      (thread : Thread)
      (here : state.place thread = .waiting)
      (testing :
        ((state.own program thread).pc thread).atWaitTest = true)
      (available : (state.own program thread).sem.count ≠ 0) :
      Move program state
        ((state.setSem (program.role thread)
          ((state.own program thread).ret thread
            (state.own program thread).sem.take
              .wait .success none)).setPlace thread .locking)
  | lock
      (thread : Thread)
      (here : state.place thread = .locking)
      (free : state.lock = none) :
      Move program state
        { state.setPlace thread .access with lock := some thread }
  | store
      (thread : Thread)
      (producer : program.role thread = .producer)
      (here : state.place thread = .access) :
      Move program state
        { state.setPlace thread .bumping with
          ring := state.ring.store (state.rounds thread + 1) }
  | push
      (thread : Thread)
      (producer : program.role thread = .producer)
      (here : state.place thread = .bumping) :
      Move program state
        { state.setPlace thread .unlocking with
          ring := state.ring.push program.slots.toNat
          produced :=
            state.produced ++ [(thread, state.rounds thread + 1)] }
  | load
      (thread : Thread)
      (consumer : program.role thread = .consumer)
      (here : state.place thread = .access) :
      Move program state
        { state.setPlace thread .bumping with
          item := Function.update state.item thread state.ring.next }
  | advance
      (thread : Thread)
      (consumer : program.role thread = .consumer)
      (here : state.place thread = .bumping) :
      Move program state
        { state.setPlace thread .unlocking with
          ring := state.ring.advance program.slots.toNat
          consumed := state.consumed ++ [(thread, state.item thread)] }
  | unlock
      (thread : Thread)
      (here : state.place thread = .unlocking) :
      Move program state
        { state.setPlace thread .post with lock := none }
  | callsPost
      (thread : Thread)
      (here : state.place thread = .post) :
      Move program state
        ((state.setSem (program.role thread).other
          ((state.other program thread).setPc thread .postEnter)).setPlace
            thread .posting)
  | posts
      (thread : Thread)
      (targets : Finset Thread)
      (here : state.place thread = .posting)
      (entered : (state.other program thread).pc thread = .postEnter)
      (signals :
        semCond.Signals
          (Function.update (state.other program thread).pc thread .idle)
          targets) :
      Move program state
        ((state.setSem (program.role thread).other {
          (state.other program thread).ret thread
            (syncSemPost (state.other program thread).sem)
              .post .success none with
          pc :=
            semCond.notify targets
              (Function.update (state.other program thread).pc
                thread .idle) }).leave program thread)
  | add
      (thread : Thread)
      (here : state.place thread = .adding) :
      Move program state
        { state.finish thread with
          sum :=
            Function.update state.sum thread
              (state.sum thread + CInt.ofInt .int (state.item thread)) }

/-- Where a thread is once it has posted. -/
def Place.left : Party → Place
  | .producer => .loop
  | .consumer => .adding

/-- A thread that has posted moves on in its loop. -/
@[simp] theorem State.leave_place
    (program : Program Thread)
    (state : State Thread)
    (thread : Thread) :
    (state.leave program thread).place =
      Function.update state.place thread
        (Place.left (program.role thread)) := by
  unfold State.leave
  cases program.role thread <;> rfl

/-- It does not touch the mutex. -/
@[simp] theorem State.leave_lock
    (program : Program Thread)
    (state : State Thread)
    (thread : Thread) :
    (state.leave program thread).lock = state.lock := by
  unfold State.leave
  cases program.role thread <;> rfl

/-- Nor the buffer, nor what has gone through it. -/
theorem State.leave_buffer
    (program : Program Thread)
    (state : State Thread)
    (thread : Thread) :
    (state.leave program thread).ring = state.ring ∧
      (state.leave program thread).produced = state.produced ∧
      (state.leave program thread).consumed = state.consumed ∧
      (state.leave program thread).item = state.item ∧
      (state.leave program thread).sum = state.sum := by
  unfold State.leave
  cases program.role thread <;> exact ⟨rfl, rfl, rfl, rfl, rfl⟩

/-- It leaves the semaphores as they are. -/
@[simp] theorem State.leave_sems
    (program : Program Thread)
    (state : State Thread)
    (thread : Thread) :
    (state.leave program thread).sems = state.sems := by
  unfold State.leave
  cases program.role thread <;> rfl

/-- A thread waits in no semaphore but its own. -/
theorem Place.called_waiting
    {place : Place}
    (called : place.called = .waiting) :
    place = .waiting := by
  cases place <;> first | rfl | contradiction

/-- And it posts only from `posting`. -/
theorem Place.called_posting
    {place : Place}
    (called : place.called = .posting) :
    place = .posting := by
  cases place <;> first | rfl | contradiction

/-- Behind its post a thread goes on as its role says. -/
theorem State.goOn_posting
    {thread : Thread}
    (here : state.place thread = .posting) :
    state.goOn program thread = state.leave program thread := by
  unfold State.goOn State.leave
  rw [here]
  cases program.role thread <;> rfl

/-- Behind its wait a thread goes to the mutex. -/
theorem State.goOn_waiting
    {thread : Thread}
    (here : state.place thread = .waiting) :
    state.goOn program thread = state.setPlace thread .locking := by
  unfold State.goOn
  rw [here]

/-- A thread that posts does not wake itself. -/
theorem notify_self
    {pcs : Thread → Pc}
    {thread : Thread}
    {targets : Finset Thread}
    (signals :
      semCond.Signals (Function.update pcs thread .idle) targets) :
    semCond.notify targets (Function.update pcs thread .idle) thread =
      .idle := by
  have awake :
      semCond.asleep (Function.update pcs thread .idle thread) =
        false := by
    rw [Function.update_self]
    rfl
  rw [CondVar.notify_of_awake signals awake, Function.update_self]

/-- A thread wakes up for no reason. -/
def State.disturb
    (state : State Thread)
    (owner : Party)
    (thread : Thread) : State Thread :=
  state.setSem owner
    ((state.sems owner).setPc thread (.waiting .spurious))

/-- Every act is one of the moves. -/
theorem Control.move
    (control : Control program state.sems state.place)
    (act : Act program state later) :
    Move program state later := by
  cases act with
  | callWait thread pc here more starts =>
      rw [HandOff.start_wait (control.initialized _)] at starts
      obtain rfl := Option.some.inj starts
      exact .begins thread here more
  | waitRefused thread here more refused =>
      rw [HandOff.start_wait (control.initialized _)] at refused
      contradiction
  | lock thread here free =>
      exact .lock thread here free
  | store thread producer here =>
      exact .store thread producer here
  | push thread producer here =>
      exact .push thread producer here
  | load thread consumer here =>
      exact .load thread consumer here
  | advance thread consumer here =>
      exact .advance thread consumer here
  | unlock thread here =>
      exact .unlock thread here
  | callPost thread pc here starts =>
      rw [HandOff.start_post (control.initialized _)] at starts
      obtain rfl := Option.some.inj starts
      exact .callsPost thread here
  | postRefused thread here refused =>
      rw [HandOff.start_post (control.initialized _)] at refused
      contradiction
  | inside owner thread sem step stays =>
      have fit := control.placed owner thread
      cases step with
      | waitSleeps testing empty =>
          obtain ⟨isOwn, called⟩ := HandOff.fits_atWaitTest fit testing
          obtain rfl := of_decide_eq_true isOwn
          exact .sleeps thread (Place.called_waiting called) testing
            (semWaitTest_none empty)
      | waitTakes after testing takes
      | trywait result after testing ends
      | getvalue testing =>
          exact (stays (Function.update_self thread _ _)).elim
      | post targets entered signals =>
          exact (stays (notify_self signals)).elim
  | returns owner thread sem step leaves =>
      have fit := control.placed owner thread
      cases step with
      | waitSleeps testing empty =>
          simp [Sync.State.setPc] at leaves
      | waitTakes after testing takes =>
          obtain ⟨isOwn, called⟩ := HandOff.fits_atWaitTest fit testing
          obtain rfl := of_decide_eq_true isOwn
          obtain ⟨available, rfl⟩ := semWaitTest_some takes
          have here := Place.called_waiting called
          rw [State.goOn_waiting (by exact here)]
          exact .takes thread here testing available
      | trywait result after entered ends =>
          rw [entered, HandOff.not_fits_trywaitEnter] at fit
          contradiction
      | getvalue entered =>
          rw [entered, HandOff.not_fits_getvalueEnter] at fit
          contradiction
      | post targets entered signals =>
          rw [entered] at fit
          obtain ⟨isOther, called⟩ := HandOff.fits_postEnter fit
          obtain rfl :=
            HandOff.Party.eq_other_of_ne (of_decide_eq_false isOther)
          have here := Place.called_posting called
          rw [State.goOn_posting (by exact here)]
          exact .posts thread targets here entered signals
  | add thread here =>
      exact .add thread here

omit [DecidableEq Thread] in
/-- Right after the initialisation nobody is in a call. -/
theorem Control.initial :
    Control program (initial program).sems (initial program).place := by
  constructor
  · intro owner
    rfl
  · intro owner thread
    exact (fits_outside
      (by cases decide (owner = program.role thread) <;> rfl)).mpr rfl

omit [DecidableEq Thread] in
/-- Outside its calls a thread is idle in both semaphores. -/
theorem Control.idle
    {sems : Party → Sync.State Thread}
    {place : Thread → Place}
    (control : Control program sems place)
    (owner : Party)
    {thread : Thread}
    (isOutside :
      outside (decide (owner = program.role thread))
          (place thread).called =
        true) :
    (sems owner).pc thread = .idle :=
  (fits_outside isOutside).mp (control.placed owner thread)

/-- One thread moves in its loop and in one of the semaphores. -/
theorem Control.update
    {sems : Party → Sync.State Thread}
    {places : Thread → Place}
    (control : Control program sems places)
    {owner : Party}
    {thread : Thread}
    (sem : Sync.State Thread)
    (place : Place)
    (initialized : sem.sem.initialized = true)
    (mine :
      fits (decide (owner = program.role thread)) place.called
          (sem.pc thread) =
        true)
    (others :
      ∀ other,
        other ≠ thread →
        sem.pc other = (sems owner).pc other ∨
          sem.pc other = ((sems owner).pc other).wake)
    (elsewhere :
      fits (decide (owner.other = program.role thread)) place.called
          ((sems owner.other).pc thread) =
        true) :
    Control program (Function.update sems owner sem)
      (Function.update places thread place) := by
  constructor
  · intro some
    by_cases same : some = owner
    · subst same
      simpa using initialized
    · rw [Function.update_of_ne same]
      exact control.initialized some
  · intro some party
    by_cases same : some = owner
    · subst same
      rw [Function.update_self]
      by_cases itself : party = thread
      · subst itself
        rw [Function.update_self]
        exact mine
      · rw [Function.update_of_ne itself]
        rcases others party itself with unchanged | woken
        · rw [unchanged]
          exact control.placed some party
        · rw [woken]
          exact fits_wake (control.placed some party)
    · rw [Function.update_of_ne same]
      by_cases itself : party = thread
      · subst itself
        rw [Function.update_self]
        rw [HandOff.Party.eq_other_of_ne same]
        exact elsewhere
      · rw [Function.update_of_ne itself]
        exact control.placed some party

/-- One thread moves in its loop, outside both semaphores. -/
theorem Control.place
    {sems : Party → Sync.State Thread}
    {places : Thread → Place}
    (control : Control program sems places)
    {thread : Thread}
    {place : Place}
    (before : (places thread).called = .loop)
    (after : place.called = .loop) :
    Control program sems (Function.update places thread place) := by
  refine ⟨control.initialized, ?_⟩
  intro owner party
  by_cases itself : party = thread
  · subst itself
    rw [Function.update_self, after]
    have placed := control.placed owner party
    rwa [before] at placed
  · rw [Function.update_of_ne itself]
    exact control.placed owner party

/-- One thread moves in one of the semaphores only. -/
theorem Control.sem
    {sems : Party → Sync.State Thread}
    {places : Thread → Place}
    (control : Control program sems places)
    {owner : Party}
    {thread : Thread}
    {pc : Pc}
    (mine :
      fits (decide (owner = program.role thread))
          (places thread).called pc =
        true) :
    Control program
      (Function.update sems owner ((sems owner).setPc thread pc))
      places := by
  have updated :=
    control.update ((sems owner).setPc thread pc) (places thread)
      (control.initialized owner)
      (by simpa [Sync.State.setPc] using mine)
      (fun other different => Or.inl (Function.update_of_ne different _ _))
      (control.placed owner.other thread)
  rwa [Function.update_eq_self] at updated

/-- The other semaphore of a party. -/
theorem decide_other
    (owner : Party) :
    decide (owner.other = owner) = false :=
  decide_eq_false owner.other_ne

/-- Every move keeps the threads where they belong. -/
theorem Control.step
    (control : Control program state.sems state.place)
    (move : Move program state later) :
    Control program later.sems later.place := by
  cases move with
  | begins thread here more =>
      refine control.update _ _ (control.initialized _) ?_ ?_ ?_
      · simp [Sync.State.setPc, Place.called, fits]
      · intro other different
        exact Or.inl (Function.update_of_ne different _ _)
      · rw [decide_other, fits_outside rfl]
        exact control.idle _ (by rw [decide_other, here]; rfl)
  | sleeps thread here testing empty =>
      exact control.sem (by rw [decide_eq_true rfl, here]; rfl)
  | takes thread here testing available =>
      refine control.update _ _ (control.initialized _) ?_ ?_ ?_
      · simp [Sync.State.ret, Place.called, fits]
      · intro other different
        exact Or.inl (Function.update_of_ne different _ _)
      · rw [decide_other, fits_outside rfl]
        exact control.idle _ (by rw [decide_other, here]; rfl)
  | lock thread here free
  | store thread producer here
  | push thread producer here
  | load thread consumer here
  | advance thread consumer here
  | unlock thread here
  | add thread here =>
      exact control.place (by rw [here]; rfl) rfl
  | callsPost thread here =>
      refine control.update _ _ (control.initialized _) ?_ ?_ ?_
      · simp [Sync.State.setPc, Place.called, fits]
      · intro other different
        exact Or.inl (Function.update_of_ne different _ _)
      · rw [HandOff.Party.other_other, decide_eq_true rfl, fits_outside rfl]
        exact control.idle _ (by rw [decide_eq_true rfl, here]; rfl)
  | posts thread targets here entered signals =>
      rw [State.leave_sems, State.leave_place]
      refine control.update _ _ (control.initialized _) ?_ ?_ ?_
      · simp only [notify_self signals]
        cases program.role thread <;> rfl
      · intro other different
        simp only [CondVar.notify, Function.update_of_ne different]
        split
        · exact Or.inr rfl
        · exact Or.inl rfl
      · have isOutside :
            outside true (Place.left (program.role thread)).called =
              true := by
          cases program.role thread <;> rfl
        rw [HandOff.Party.other_other, decide_eq_true rfl,
          fits_outside isOutside]
        exact control.idle _ (by rw [decide_eq_true rfl, here]; rfl)

/-- So does a spurious wake-up. -/
theorem Control.disturb
    (control : Control program state.sems state.place)
    {owner : Party}
    {thread : Thread}
    (here : (state.sems owner).pc thread = .waiting .asleep) :
    Control program (state.disturb owner thread).sems
      (state.disturb owner thread).place := by
  have fit := control.placed owner thread
  rw [here] at fit
  obtain ⟨isOwn, called⟩ := HandOff.fits_waiting fit
  exact control.sem (by rw [isOwn, called]; rfl)

/-- In every reachable state the threads are where they belong. -/
theorem reachable_control
    (reachable : (system program).Reachable state) :
    Control program state.sems state.place := by
  refine reachable.invariant
    (fun state => Control program state.sems state.place) ?_ ?_
  · rintro first rfl
    exact .initial
  · intro before after _ control next
    cases next with
    | act act =>
        exact control.step (control.move act)
    | spurious owner thread here =>
        exact control.disturb here

/-- What every move and every wake-up keeps holds in every reachable state. -/
theorem reachable_of_move
    (property : State Thread → Prop)
    (initially : property (initial program))
    (preserved :
      ∀ before after,
        Control program before.sems before.place →
        property before →
        Move program before after →
        property after)
    (undisturbed :
      ∀ before owner thread,
        (before.sems owner).pc thread = .waiting .asleep →
        property before →
        property (before.disturb owner thread))
    (reachable : (system program).Reachable state) :
    property state := by
  refine reachable.invariant property ?_ ?_
  · rintro first rfl
    exact initially
  · intro before after reached holds next
    have control := reachable_control reached
    cases next with
    | act act =>
        exact preserved before after control holds (control.move act)
    | spurious owner thread here =>
        exact undisturbed before owner thread here holds

end

end SThread.Examples.BoundedBuffer
