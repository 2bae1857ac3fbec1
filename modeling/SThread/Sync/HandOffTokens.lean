import SThread.Sync.HandOff

namespace SThread.Sync.HandOff

open SThread.Library

/-!
# Places and tokens of a hand-off

Where a thread is in its loop says where it is in each semaphore, and so which
steps the semaphores can take.  A token is in one of the counters or held by a
thread between its wait and its post.
-/

/-- A thread at `place` may be at `pc` of its own, or of the other semaphore. -/
def fits : Bool → Place → Pc → Bool
  | true, .waiting, .waitEnter => true
  | true, .waiting, .waiting _ => true
  | true, .waiting, _ => false
  | false, .posting, .postEnter => true
  | false, .posting, _ => false
  | _, _, .idle => true
  | _, _, _ => false

/-- A place at which the thread is not inside a call on the semaphore. -/
def outside : Bool → Place → Bool
  | true, .waiting => false
  | false, .posting => false
  | _, _ => true

/-- Outside its calls a thread is idle. -/
theorem fits_outside
    {own : Bool}
    {place : Place}
    {pc : Pc}
    (isOutside : outside own place = true) :
    fits own place pc = true ↔ pc = .idle := by
  cases own <;> cases place <;> cases pc <;> simp_all [fits, outside]

/-- A wake-up does not move a thread in its loop. -/
theorem fits_wake
    {own : Bool}
    {place : Place}
    {pc : Pc}
    (fit : fits own place pc = true) :
    fits own place pc.wake = true := by
  cases pc with
  | waiting wake =>
      cases own <;> cases place <;> cases wake <;> exact fit
  | _ =>
      exact fit

/-- About to test the counter, a thread waits on its own semaphore. -/
theorem fits_atWaitTest
    {own : Bool}
    {place : Place}
    {pc : Pc}
    (fit : fits own place pc = true)
    (testing : pc.atWaitTest = true) :
    own = true ∧ place = .waiting := by
  cases own <;> cases place <;> cases pc <;>
    simp_all [fits, Pc.atWaitTest]

/-- Nor does it wait on another one. -/
theorem fits_waiting
    {own : Bool}
    {place : Place}
    {wake : Scheduler.Wake}
    (fit : fits own place (.waiting wake) = true) :
    own = true ∧ place = .waiting := by
  cases own <;> cases place <;> simp_all [fits]

/-- About to post, a thread is at the other semaphore. -/
theorem fits_postEnter
    {own : Bool}
    {place : Place}
    (fit : fits own place .postEnter = true) :
    own = false ∧ place = .posting := by
  cases own <;> cases place <;> simp_all [fits]

/-- Neither thread tries to take a token. -/
theorem not_fits_trywaitEnter (own : Bool) (place : Place) :
    fits own place .trywaitEnter = false := by
  cases own <;> cases place <;> rfl

/-- Neither thread asks for the value. -/
theorem not_fits_getvalueEnter (own : Bool) (place : Place) :
    fits own place .getvalueEnter = false := by
  cases own <;> cases place <;> rfl

/-- Each thread is in both semaphores where its place says, and they are initialised. -/
structure Control
    (sems : Party → Sync.State Party)
    (place : Party → Place) : Prop where
  initialized :
    ∀ owner, (sems owner).sem.initialized = true
  placed :
    ∀ owner party,
      fits (decide (owner = party)) (place party)
          ((sems owner).pc party) =
        true

/-- There are two threads. -/
theorem Party.eq_other_of_ne
    {first second : Party}
    (different : first ≠ second) :
    first = second.other := by
  cases first <;> cases second <;> first | rfl | exact absurd rfl different

/-- The other thread is another one. -/
@[simp] theorem Party.other_ne (party : Party) :
    party.other ≠ party := by
  cases party <;> simp [Party.other]

/-- And the other way round. -/
@[simp] theorem Party.other_other (party : Party) :
    party.other.other = party := by
  cases party <;> rfl

/-- What a step of a semaphore can be. -/
inductive SemStep
    (state : State)
    (owner party : Party)
    (sem : Sync.State Party) : Prop where
  | sleeps
      (own : owner = party)
      (here : state.place party = .waiting)
      (same : sem.sem = (state.sems owner).sem)
      (stays : sem.pc party = .waiting .asleep)
      (frame : ∀ thread, thread ≠ party →
        sem.pc thread = (state.sems owner).pc thread)
  | takes
      (own : owner = party)
      (here : state.place party = .waiting)
      (available : (state.sems owner).sem.count ≠ 0)
      (taken : sem.sem = (state.sems owner).sem.take)
      (leaves : sem.pc party = .idle)
      (frame : ∀ thread, thread ≠ party →
        sem.pc thread = (state.sems owner).pc thread)
  | posts
      (foreign : owner = party.other)
      (here : state.place party = .posting)
      (posted : sem.sem = syncSemPost (state.sems owner).sem)
      (leaves : sem.pc party = .idle)
      (frame : ∀ thread, thread ≠ party →
        sem.pc thread = (state.sems owner).pc thread ∨
          sem.pc thread = ((state.sems owner).pc thread).wake)

/-- A step of a semaphore is one of these. -/
theorem Control.semStep
    {state : State}
    (control : Control state.sems state.place)
    {owner party : Party}
    {sem : Sync.State Party}
    (step : Step (state.sems owner) party sem) :
    SemStep state owner party sem := by
  have fit := control.placed owner party
  cases step with
  | waitSleeps here empty =>
      obtain ⟨own, place⟩ := fits_atWaitTest fit here
      refine .sleeps (of_decide_eq_true own) place rfl ?_ ?_
      · exact Function.update_self party _ _
      · intro thread different
        exact Function.update_of_ne different _ _
  | waitTakes after here takes =>
      obtain ⟨own, place⟩ := fits_atWaitTest fit here
      obtain ⟨available, rfl⟩ := semWaitTest_some takes
      refine .takes (of_decide_eq_true own) place available rfl ?_ ?_
      · exact Function.update_self party _ _
      · intro thread different
        exact Function.update_of_ne different _ _
  | trywait result after here ends =>
      rw [here, not_fits_trywaitEnter] at fit
      contradiction
  | post targets here signals =>
      rw [here] at fit
      obtain ⟨foreign, place⟩ := fits_postEnter fit
      refine .posts (Party.eq_other_of_ne (of_decide_eq_false foreign))
        place rfl ?_ ?_
      · have awake :
            semCond.asleep
                (Function.update (state.sems owner).pc party .idle
                  party) =
              false := by
          rw [Function.update_self]
          rfl
        have idle := CondVar.notify_of_awake signals awake
        rw [Function.update_self] at idle
        exact idle
      · intro thread different
        simp only [CondVar.notify, Function.update_of_ne different]
        split
        · exact Or.inr rfl
        · exact Or.inl rfl
  | getvalue here =>
      rw [here, not_fits_getvalueEnter] at fit
      contradiction

section Control

variable
    {sems : Party → Sync.State Party}
    {places : Party → Place}
    {owner party : Party}

/-- Outside its calls on a semaphore a thread is idle there. -/
theorem Control.idle
    (control : Control sems places)
    (isOutside :
      outside (decide (owner = party)) (places party) = true) :
    (sems owner).pc party = .idle :=
  (fits_outside isOutside).mp (control.placed owner party)

/-- One thread moves in its loop and in one of the semaphores. -/
theorem Control.update
    (control : Control sems places)
    {sem : Sync.State Party}
    {place : Place}
    (initialized : sem.sem.initialized = true)
    (mine : fits (decide (owner = party)) place (sem.pc party) = true)
    (others :
      ∀ thread,
        thread ≠ party →
        fits (decide (owner = thread)) (places thread)
            (sem.pc thread) =
          true)
    (elsewhere :
      ∀ other,
        other ≠ owner →
        fits (decide (other = party)) place ((sems other).pc party) =
          true) :
    Control (Function.update sems owner sem)
      (Function.update places party place) := by
  constructor
  · intro other
    by_cases same : other = owner
    · subst same
      simpa using initialized
    · rw [Function.update_of_ne same]
      exact control.initialized other
  · intro other thread
    by_cases same : other = owner
    · subst same
      rw [Function.update_self]
      by_cases itself : thread = party
      · subst itself
        rw [Function.update_self]
        exact mine
      · rw [Function.update_of_ne itself]
        exact others thread itself
    · rw [Function.update_of_ne same]
      by_cases itself : thread = party
      · subst itself
        rw [Function.update_self]
        exact elsewhere other same
      · rw [Function.update_of_ne itself]
        exact control.placed other thread

/-- One thread moves in its loop, outside both semaphores. -/
theorem Control.move
    (control : Control sems places)
    {place : Place}
    (before : ∀ own, outside own (places party) = true)
    (after : ∀ own, outside own place = true) :
    Control sems (Function.update places party place) := by
  refine ⟨control.initialized, ?_⟩
  intro owner thread
  by_cases itself : thread = party
  · subst itself
    rw [Function.update_self, fits_outside (after _)]
    exact control.idle (before _)
  · rw [Function.update_of_ne itself]
    exact control.placed owner thread

end Control

/-- A wait on an initialised semaphore starts. -/
theorem start_wait
    {sem : SyncSem}
    (initialized : sem.initialized = true) :
    Request.wait.start sem = some .waitEnter := by
  simp [Request.start, initialized]

/-- So does a post. -/
theorem start_post
    {sem : SyncSem}
    (initialized : sem.initialized = true) :
    Request.post.start sem = some .postEnter := by
  simp [Request.start, initialized]

section Steps

variable
    {slots : UInt32}
    {count : Nat}
    {state later : State}
    {party : Party}

/-- Behind its wait a thread may access the ring. -/
theorem State.goOn_waiting
    (here : state.place party = .waiting) :
    state.goOn party = state.setPlace party .access := by
  simp [State.goOn, here]

/-- Behind its post a thread has finished one more round. -/
theorem State.goOn_posting
    (here : state.place party = .posting) :
    state.goOn party =
      { state.setPlace party .loop with
        rounds :=
          Function.update state.rounds party
            (state.rounds party + 1) } := by
  simp [State.goOn, here]

/-- Right after the initialisation nobody is in a call. -/
theorem Control.initial (slots : UInt32) :
    Control (initial slots).sems (initial slots).place := by
  constructor
  · intro owner
    rfl
  · intro owner party
    exact (fits_outside (by cases decide (owner = party) <;> rfl)).mpr rfl

/-- Every step keeps the threads where they belong. -/
theorem Control.step
    (control : Control state.sems state.place)
    (step : Next slots count state later) :
    Control later.sems later.place := by
  cases step with
  | callWait party pc here more starts =>
      rw [start_wait (control.initialized party)] at starts
      obtain rfl := Option.some.inj starts
      refine control.update (control.initialized party) ?_ ?_ ?_
      · simp [Sync.State.setPc, fits]
      · intro thread different
        simp only [Sync.State.setPc, Function.update_of_ne different]
        exact control.placed party thread
      · intro other different
        rw [decide_eq_false different, fits_outside rfl]
        exact control.idle (by rw [here]; cases decide (other = party) <;> rfl)
  | waitRefused party here more refused =>
      rw [start_wait (control.initialized party)] at refused
      contradiction
  | produce here
  | consume here =>
      refine control.move ?_ ?_
      · intro own
        rw [here]
        cases own <;> rfl
      · intro own
        cases own <;> rfl
  | callPost party pc here starts =>
      rw [start_post (control.initialized party.other)] at starts
      obtain rfl := Option.some.inj starts
      refine control.update (control.initialized party.other) ?_ ?_ ?_
      · simp [Sync.State.setPc, fits]
      · intro thread different
        simp only [Sync.State.setPc, Function.update_of_ne different]
        exact control.placed party.other thread
      · intro other different
        have own : other = party := by
          rw [Party.eq_other_of_ne different, Party.other_other]
        rw [decide_eq_true own, fits_outside rfl]
        exact control.idle (by rw [here]; cases decide (other = party) <;> rfl)
  | postRefused party here refused =>
      rw [start_post (control.initialized party.other)] at refused
      contradiction
  | inside owner party sem step stays =>
      have unmoved :
          (state.setSem owner sem).place =
            Function.update state.place party (state.place party) := by
        rw [Function.update_eq_self]
        rfl
      rw [unmoved]
      cases control.semStep step with
      | sleeps own here same asleep frame =>
          refine control.update ?_ ?_ ?_ ?_
          · rw [same]
            exact control.initialized owner
          · rw [decide_eq_true own, here, asleep]
            rfl
          · intro thread different
            rw [frame thread different]
            exact control.placed owner thread
          · intro other different
            exact control.placed other party
      | takes _ _ _ _ leaves _
      | posts _ _ _ leaves _ =>
          exact absurd leaves stays
  | returns owner party sem step leaves =>
      cases control.semStep step with
      | sleeps _ _ _ stays _ =>
          rw [leaves] at stays
          contradiction
      | takes own here available taken leaves frame =>
          rw [State.goOn_waiting (by exact here)]
          refine control.update ?_ ?_ ?_ ?_
          · rw [taken]
            exact control.initialized owner
          · rw [decide_eq_true own, leaves]
            rfl
          · intro thread different
            rw [frame thread different]
            exact control.placed owner thread
          · intro other different
            subst own
            rw [decide_eq_false different, fits_outside rfl]
            exact control.idle
              (by rw [decide_eq_false different, here]; rfl)
      | posts foreign here posted leaves frame =>
          rw [State.goOn_posting (by exact here)]
          have notOwn : owner ≠ party := by
            rw [foreign]
            exact party.other_ne
          refine control.update ?_ ?_ ?_ ?_
          · rw [posted]
            exact control.initialized owner
          · rw [decide_eq_false notOwn, leaves]
            rfl
          · intro thread different
            rcases frame thread different with same | woken
            · rw [same]
              exact control.placed owner thread
            · rw [woken]
              exact fits_wake (control.placed owner thread)
          · intro other different
            have own : other = party := by
              rw [Party.eq_other_of_ne different, foreign,
                Party.other_other]
            rw [decide_eq_true own, fits_outside rfl]
            exact control.idle (by rw [decide_eq_true own, here]; rfl)
  | spurious owner party here =>
      have unmoved :
          (state.setSem owner
              ((state.sems owner).setPc party (.waiting .spurious))).place =
            Function.update state.place party (state.place party) := by
        rw [Function.update_eq_self]
        rfl
      rw [unmoved]
      refine control.update (control.initialized owner) ?_ ?_ ?_
      · have asleep := control.placed owner party
        rw [here] at asleep
        simp only [Sync.State.setPc, Function.update_self]
        obtain ⟨own, place⟩ := fits_waiting asleep
        rw [own, place]
        rfl
      · intro thread different
        simp only [Sync.State.setPc, Function.update_of_ne different]
        exact control.placed owner thread
      · intro other different
        exact control.placed other party

end Steps

end SThread.Sync.HandOff
