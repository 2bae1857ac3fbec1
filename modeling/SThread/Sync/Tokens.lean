import Mathlib.Algebra.Order.BigOperators.Group.Finset
import Mathlib.Algebra.Order.Sub.Basic
import SThread.Sync.SemWakeup

namespace SThread.Sync

open SThread.Library

/-!
# The tokens of a semaphore

A successful wait or trywait takes a token and a successful post puts one back.
The counter is the balance of the history as long as no post wraps it, and
`sync_sem_getvalue` writes that balance as long as it fits an `int`.

Threads that only post tokens of their own keep the counter between zero and
its initial value.
-/

/-- A call that has taken a token. -/
def Event.isTake
    {Thread : Type}
    (event : Event Thread) : Bool :=
  decide (event.result = .success) &&
    (decide (event.request = .wait) || decide (event.request = .trywait))

/-- A call that has put a token back. -/
def Event.isPost
    {Thread : Type}
    (event : Event Thread) : Bool :=
  decide (event.result = .success) && decide (event.request = .post)

/-- The number of waits and trywaits that have succeeded. -/
def takes
    {Thread : Type}
    (history : List (Event Thread)) : Nat :=
  history.countP Event.isTake

/-- The number of posts that have succeeded. -/
def posts
    {Thread : Type}
    (history : List (Event Thread)) : Nat :=
  history.countP Event.isPost

/-- The tokens that are available after a history, counted in natural numbers. -/
def balance
    {Thread : Type}
    (value : UInt32)
    (history : List (Event Thread)) : Int :=
  value.toNat + posts history - takes history

/-- One more event counts for itself. -/
@[simp] theorem takes_snoc
    {Thread : Type}
    (history : List (Event Thread))
    (event : Event Thread) :
    takes (history ++ [event]) =
      takes history + event.isTake.toNat := by
  cases isTake : event.isTake <;> simp [takes, isTake]

/-- The same for posts. -/
@[simp] theorem posts_snoc
    {Thread : Type}
    (history : List (Event Thread))
    (event : Event Thread) :
    posts (history ++ [event]) =
      posts history + event.isPost.toNat := by
  cases isPost : event.isPost <;> simp [posts, isPost]

/-- A post with an unrepresentable result fails, and a value read is the balance. -/
structure Event.Lawful
    {Thread : Type}
    (value : UInt32)
    (before : List (Event Thread))
    (event : Event Thread) : Prop where
  post :
    event.isPost = true → balance value before + 1 < 2 ^ 32
  getvalue :
    ∀ written,
      event.written = some written →
      written = balance value before

/-- All events of a history are lawful. -/
def Lawful
    {Thread : Type}
    (value : UInt32)
    (history : List (Event Thread)) : Prop :=
  ∀ before event after,
    history = before ++ event :: after →
    event.Lawful value before

/-- No token has been lost or invented so far. -/
structure Conserves
    {Thread : Type}
    (value : UInt32)
    (state : State Thread) : Prop where
  tokens :
    (state.sem.count.toNat : Int) = balance value state.history
  lawful :
    Lawful value state.history

/-- A post has found room in the counter, a getvalue a counter that fits an `int`. -/
structure Event.Fits
    {Thread : Type}
    (event : Event Thread) : Prop where
  post :
    event.request = .post → event.found.toNat + 1 < 2 ^ 32
  getvalue :
    event.request = .getvalue true → event.found.toNat < 2 ^ 31

/-- A history is lawful when its beginning and its last event are. -/
theorem lawful_snoc
    {Thread : Type}
    {value : UInt32}
    {history : List (Event Thread)}
    {event : Event Thread} :
    Lawful value (history ++ [event]) ↔
      Lawful value history ∧ event.Lawful value history := by
  constructor
  · intro lawful
    refine ⟨?_, lawful history event [] rfl⟩
    intro before first after split
    refine lawful before first (after ++ [event]) ?_
    rw [split]
    simp
  · rintro ⟨lawful, last⟩ before first after split
    induction after using List.reverseRecOn with
    | nil =>
        obtain ⟨rfl, same⟩ := List.append_inj' split rfl
        obtain rfl := List.singleton_inj.mp same
        exact last
    | append_singleton after final _ =>
        rw [← List.cons_append, ← List.append_assoc] at split
        obtain ⟨rfl, _⟩ := List.append_inj' split rfl
        exact lawful before first after rfl

/-- The signed view of a counter is the counter exactly when it fits. -/
theorem getvalue_eq_iff
    (sem : SyncSem) :
    syncSemGetvalue sem = sem.count.toNat ↔ sem.count.toNat < 2 ^ 31 := by
  have view :
      syncSemGetvalue sem =
        if 2 * sem.count.toNat < 2 ^ 32 then
          (sem.count.toNat : Int)
        else
          (sem.count.toNat : Int) - (2 ^ 32 : Nat) :=
    BitVec.toInt_eq_toNat_cond sem.count.toBitVec
  rw [view]
  split <;> omega

/-- A call that is refused is a getvalue without an output. -/
theorem Request.start_none
    {sem : SyncSem}
    {request : Request}
    (initialized : sem.initialized = true)
    (fails : request.start sem = none) :
    request = .getvalue false := by
  cases request with
  | getvalue output =>
      cases output <;> simp_all [Request.start]
  | _ =>
      simp [Request.start, initialized] at fails

section

variable
    {Thread : Type}
    [DecidableEq Thread]
    {value : UInt32}
    {state later : State Thread}
    {thread : Thread}

/-- Beside a counter that is the balance, an event is lawful exactly when it fits. -/
def Event.Settles
    (value : UInt32)
    (state : State Thread)
    (sem : SyncSem)
    (event : Event Thread) : Prop :=
  (state.sem.count.toNat : Int) = balance value state.history →
    (event.Lawful value state.history ↔ event.Fits) ∧
      (event.Fits →
        (sem.count.toNat : Int) =
          balance value (state.history ++ [event]))

/-- The history is lawful exactly when it fits, and then the counter is right. -/
structure Settled
    (value : UInt32)
    (state : State Thread) : Prop where
  initialized :
    state.sem.initialized = true
  lawful :
    Lawful value state.history ↔ ∀ event ∈ state.history, event.Fits
  tokens :
    (∀ event ∈ state.history, event.Fits) →
      (state.sem.count.toNat : Int) = balance value state.history

omit [DecidableEq Thread] in
/-- One more event that settles. -/
theorem Settled.snoc
    {event : Event Thread}
    (settled : Settled value state)
    (settles : event.Settles value state later.sem)
    (history : later.history = state.history ++ [event])
    (initialized : later.sem.initialized = true) :
    Settled value later := by
  have fits :
      (∀ other ∈ later.history, other.Fits) ↔
        (∀ other ∈ state.history, other.Fits) ∧ event.Fits := by
    simp [history, or_imp, forall_and]
  refine ⟨initialized, ?_, ?_⟩
  · rw [fits, history, lawful_snoc, settled.lawful]
    constructor
    · rintro ⟨before, last⟩
      exact ⟨before, (settles (settled.tokens before)).1.mp last⟩
    · rintro ⟨before, last⟩
      exact ⟨before, (settles (settled.tokens before)).1.mpr last⟩
  · intro all
    obtain ⟨before, last⟩ := fits.mp all
    rw [history]
    exact (settles (settled.tokens before)).2 last

omit [DecidableEq Thread] in
/-- An event that neither posts nor reads settles if it takes what it says. -/
theorem Event.settles_of_quiet
    {sem : SyncSem}
    {event : Event Thread}
    (notPost : event.request ≠ .post)
    (notRead : event.request ≠ .getvalue true)
    (unwritten : event.written = none)
    (counts :
      sem.count.toNat + event.isTake.toNat = state.sem.count.toNat) :
    event.Settles value state sem := by
  intro tokens
  have notIsPost : event.isPost = false := by
    simp [Event.isPost, notPost]
  constructor
  · constructor
    · intro _
      exact ⟨fun post => (notPost post).elim,
        fun read => (notRead read).elim⟩
    · intro _
      refine ⟨?_, ?_⟩
      · rw [notIsPost]
        exact Bool.noConfusion
      · rw [unwritten]
        exact nofun
  · intro _
    simp only [balance, takes_snoc, posts_snoc, notIsPost,
      Bool.toNat_false] at tokens ⊢
    omega

/-- Every step of a thread settles. -/
theorem Step.settled
    (step : Step state thread later)
    (settled : Settled value state) :
    Settled value later := by
  have initialized := settled.initialized
  cases step with
  | waitSleeps here empty =>
      exact ⟨initialized, settled.lawful, settled.tokens⟩
  | waitTakes sem here takes =>
      obtain ⟨available, rfl⟩ := semWaitTest_some takes
      refine settled.snoc ?_ rfl initialized
      refine Event.settles_of_quiet nofun nofun rfl ?_
      simpa [Event.isTake] using SyncSem.take_toNat available
  | trywait result sem here ends =>
      rcases syncSemTrywait_cases ends with
        ⟨_, rfl, rfl⟩ | ⟨available, rfl, rfl⟩
      · refine settled.snoc ?_ rfl initialized
        exact Event.settles_of_quiet nofun nofun rfl rfl
      · refine settled.snoc ?_ rfl initialized
        refine Event.settles_of_quiet nofun nofun rfl ?_
        simpa [Event.isTake] using SyncSem.take_toNat available
  | post targets here signals =>
      refine settled.snoc ?_ rfl initialized
      intro tokens
      have wraps := syncSemPost_toNat state.sem
      constructor
      · constructor
        · rintro ⟨room, _⟩
          have inRange : balance value state.history + 1 < 2 ^ 32 :=
            room rfl
          have fits : state.sem.count.toNat + 1 < 2 ^ 32 := by
            omega
          exact ⟨fun _ => fits, nofun⟩
        · rintro ⟨room, _⟩
          have fits : state.sem.count.toNat + 1 < 2 ^ 32 := room rfl
          have inRange : balance value state.history + 1 < 2 ^ 32 := by
            omega
          exact ⟨fun _ => inRange, nofun⟩
      · rintro ⟨room, _⟩
        have fits : state.sem.count.toNat + 1 < 2 ^ 32 := room rfl
        simp only [balance, takes_snoc, posts_snoc, State.ret_sem,
          Event.isTake, Event.isPost] at tokens ⊢
        simp
        omega
  | getvalue here =>
      refine settled.snoc ?_ rfl initialized
      intro tokens
      have view := getvalue_eq_iff state.sem
      constructor
      · constructor
        · rintro ⟨_, read⟩
          refine ⟨nofun, fun _ => ?_⟩
          rw [← view, read _ rfl, tokens]
        · rintro ⟨_, read⟩
          refine ⟨nofun, ?_⟩
          rintro written same
          obtain rfl := Option.some.inj same
          rw [view.mpr (read rfl), tokens]
      · intro _
        simp only [balance, takes_snoc, posts_snoc, State.ret_sem] at tokens ⊢
        simpa [Event.isTake, Event.isPost] using tokens

/-- Every reachable state is settled. -/
theorem reachable_settled
    {allowed : State Thread → Thread → Request → Prop}
    (reachable : (system value allowed).Reachable state) :
    Settled value state := by
  refine System.Reachable.invariant (Settled value) ?_ ?_ reachable
  · intro first initial
    subst initial
    refine ⟨rfl, ?_, ?_⟩
    · simp [State.initial, Lawful]
    · intro _
      simp [State.initial, syncSemInit, balance, posts, takes]
  · intro before after _ settled next
    cases next with
    | call thread request pc here may starts
    | spurious thread here =>
        exact ⟨settled.initialized, settled.lawful, settled.tokens⟩
    | invalid thread request here may fails =>
        obtain rfl := Request.start_none settled.initialized fails
        refine settled.snoc ?_ rfl settled.initialized
        exact Event.settles_of_quiet nofun nofun rfl rfl
    | step thread step =>
        exact step.settled settled

/--
Tokens are neither lost nor invented exactly as long as every post finds room
in the counter and every getvalue a counter that fits an `int`.
-/
theorem conserves_iff
    (value : UInt32)
    (state : State Thread)
    (reachable : (system value anyCall).Reachable state) :
    Conserves value state ↔
      ∀ event ∈ state.history, event.Fits := by
  have settled := reachable_settled reachable
  constructor
  · intro conserves
    exact settled.lawful.mp conserves.lawful
  · intro fits
    exact ⟨settled.tokens fits, settled.lawful.mpr fits⟩

end

/-- A token is taken and put back, and the value is read. -/
theorem conserves_read :
    ∃ state : State Unit,
      (system 1 anyCall).Reachable state ∧
        state.history.map Event.written = [none, none, some 1] ∧
        Conserves 1 state := by
  have start : (system 1 (@anyCall Unit)).Reachable _ :=
    .start rfl
  have waits := start.step (.call () .wait _ rfl trivial rfl)
  have takes := waits.step (.step () (.waitTakes _ rfl rfl))
  have calls := takes.step (.call () .post _ rfl trivial rfl)
  have posts := calls.step
    (.step () (.post ∅ rfl ⟨by decide, by decide⟩))
  have asks := posts.step
    (.call () (.getvalue true) _ rfl trivial rfl)
  have reads := asks.step (.step () (.getvalue rfl))
  refine ⟨_, reads, rfl, (conserves_iff 1 _ reads).mpr ?_⟩
  simp only [State.ret, State.setPc, State.initial, syncSemInit,
    List.nil_append, List.cons_append, List.mem_cons,
    List.not_mem_nil, or_false, forall_eq_or_imp, forall_eq]
  refine
    ⟨⟨by rintro ⟨⟩, by rintro ⟨⟩⟩, ⟨fun _ => ?_, by rintro ⟨⟩⟩,
      ⟨by rintro ⟨⟩, fun _ => ?_⟩⟩
  · decide
  · decide

/--
A post on a full counter succeeds and leaves no token, and a counter that does
not fit an `int` is read as a negative number.
-/
theorem exists_not_conserves :
    (∃ state : State Unit,
      (system 4294967295 anyCall).Reachable state ∧
        state.history.map Event.result = [.success] ∧
        state.sem.count = 0 ∧
        ¬ Conserves 4294967295 state) ∧
      ∃ state : State Unit,
        (system 2147483648 anyCall).Reachable state ∧
          state.history.map Event.written = [some (-2147483648)] ∧
          ¬ Conserves 2147483648 state := by
  constructor
  · have start : (system 4294967295 (@anyCall Unit)).Reachable _ :=
      .start rfl
    have calls := start.step (.call () .post _ rfl trivial rfl)
    have posts := calls.step
      (.step () (.post ∅ rfl ⟨by decide, by decide⟩))
    refine ⟨_, posts, rfl, rfl, ?_⟩
    intro conserves
    have room := (conserves.lawful [] _ [] rfl).post rfl
    exact absurd room (by decide)
  · have start : (system 2147483648 (@anyCall Unit)).Reachable _ :=
      .start rfl
    have asks := start.step
      (.call () (.getvalue true) _ rfl trivial rfl)
    have reads := asks.step (.step () (.getvalue rfl))
    refine ⟨_, reads, rfl, ?_⟩
    intro conserves
    have read := (conserves.lawful [] _ [] rfl).getvalue _ rfl
    exact absurd read (by decide)

end SThread.Sync
