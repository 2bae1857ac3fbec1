import SThread.Sync.Tokens

namespace SThread.Sync

open SThread.Library

/-!
# Semaphores as locks

Every thread posts only tokens that it has taken itself.  A token is then
either in the counter or held by a thread, and there are as many as the
semaphore was initialised with.

A thread may hold several tokens, and it holds its token until the critical
section of its post.
-/

/-- The events of one thread. -/
def eventsOf
    {Thread : Type}
    [DecidableEq Thread]
    (thread : Thread)
    (history : List (Event Thread)) : List (Event Thread) :=
  history.filter fun event => decide (event.thread = thread)

/-- The tokens a thread has taken and not yet put back. -/
def tokensHeld
    {Thread : Type}
    [DecidableEq Thread]
    (history : List (Event Thread))
    (thread : Thread) : Nat :=
  takes (eventsOf thread history) - posts (eventsOf thread history)

/-- A thread posts only a token of its own. -/
def ownTokens
    {Thread : Type}
    [DecidableEq Thread]
    (state : State Thread)
    (thread : Thread)
    (request : Request) : Prop :=
  request = .post → 0 < tokensHeld state.history thread

/-- The threads of an event add up to all threads. -/
theorem sum_countP_eventsOf
    {Thread : Type}
    [DecidableEq Thread]
    [Fintype Thread]
    (test : Event Thread → Bool)
    (history : List (Event Thread)) :
    ∑ thread, (eventsOf thread history).countP test =
      history.countP test := by
  induction history with
  | nil =>
      simp [eventsOf]
  | cons event rest inductionHypothesis =>
      simp only [eventsOf, List.countP_filter] at inductionHypothesis ⊢
      simp only [List.countP_cons, Finset.sum_add_distrib,
        inductionHypothesis]
      cases test event <;> simp

/-- About to put a token back. -/
def Pc.posting : Pc → Bool
  | .postEnter => true
  | _ => false

/-- A call of another function puts no token back. -/
theorem Request.start_posting
    {sem : SyncSem}
    {request : Request}
    {pc : Pc}
    (starts : request.start sem = some pc)
    (posting : pc.posting = true) :
    request = .post := by
  cases request with
  | post =>
      rfl
  | _ =>
      simp only [Request.start, Option.ite_none_right_eq_some,
        Option.some.injEq] at starts
      obtain ⟨_, rfl⟩ := starts
      exact Bool.noConfusion posting

/-- No wake-up lets a thread put a token back. -/
theorem wake_posting
    (pc : Pc)
    (asleep : semCond.asleep pc = true) :
    (semCond.wake pc).posting = pc.posting := by
  rw [Pc.asleep_iff.mp asleep]
  rfl

section

variable
    {Thread : Type}
    [DecidableEq Thread]
    {value : UInt32}
    {state later : State Thread}
    {thread : Thread}

/-- One more event is an event of its own thread. -/
theorem eventsOf_snoc
    (history : List (Event Thread))
    (event : Event Thread)
    (thread : Thread) :
    eventsOf thread (history ++ [event]) =
      eventsOf thread history ++
        (if event.thread = thread then [event] else []) := by
  by_cases own : event.thread = thread <;>
    simp [eventsOf, own]

/-- The threads hold what is missing in the counter, and post only from that. -/
structure OwnTokens
    (value : UInt32)
    (state : State Thread) : Prop where
  account :
    state.sem.count.toNat + takes state.history =
      value.toNat + posts state.history
  matched :
    ∀ thread,
      posts (eventsOf thread state.history) +
          (state.pc thread).posting.toNat ≤
        takes (eventsOf thread state.history)
  maxCount :
    state.sem.maxCount = value

/-- A thread moves outside the critical sections. -/
theorem OwnTokens.setPc
    {pc : Pc}
    (own : OwnTokens value state)
    (mayPost :
      pc.posting = true → 0 < tokensHeld state.history thread) :
    OwnTokens value (state.setPc thread pc) := by
  refine ⟨own.account, ?_, own.maxCount⟩
  intro other
  have matched := own.matched other
  by_cases actor : other = thread
  · subst actor
    simp only [State.setPc, Function.update_self]
    cases posting : pc.posting with
    | false =>
        simp only [Bool.toNat_false]
        omega
    | true =>
        have held := mayPost posting
        simp only [tokensHeld, Bool.toNat_true] at held ⊢
        omega
  · simpa [State.setPc, actor] using matched

/-- A thread leaves a critical section with one more event. -/
theorem OwnTokens.ret
    {event : Event Thread}
    (own : OwnTokens value state)
    (isThread : event.thread = thread)
    (history : later.history = state.history ++ [event])
    (counts :
      later.sem.count.toNat + event.isTake.toNat =
        state.sem.count.toNat + event.isPost.toNat)
    (paid : event.isPost.toNat ≤ (state.pc thread).posting.toNat)
    (outside : (later.pc thread).posting = false)
    (others :
      ∀ other,
        other ≠ thread →
        (later.pc other).posting = (state.pc other).posting)
    (maxCount : later.sem.maxCount = state.sem.maxCount) :
    OwnTokens value later := by
  refine ⟨?_, ?_, maxCount.trans own.maxCount⟩
  · have account := own.account
    simp only [history, takes_snoc, posts_snoc]
    omega
  · intro other
    have matched := own.matched other
    rw [history, eventsOf_snoc, isThread]
    by_cases actor : other = thread
    · subst actor
      simp only [if_true, takes_snoc, posts_snoc, outside,
        Bool.toNat_false]
      omega
    · simpa [Ne.symm actor, others other actor] using matched

/-- All tokens taken, thread by thread. -/
theorem sum_takes
    [Fintype Thread]
    (history : List (Event Thread)) :
    ∑ thread, takes (eventsOf thread history) = takes history :=
  sum_countP_eventsOf Event.isTake history

/-- All tokens put back, thread by thread. -/
theorem sum_posts
    [Fintype Thread]
    (history : List (Event Thread)) :
    ∑ thread, posts (eventsOf thread history) = posts history :=
  sum_countP_eventsOf Event.isPost history

/-- The tokens held are those taken and not put back. -/
theorem OwnTokens.sum_tokensHeld
    [Fintype Thread]
    (own : OwnTokens value state) :
    state.sem.count.toNat + ∑ thread, tokensHeld state.history thread =
      value.toNat := by
  have each :
      ∀ thread ∈ Finset.univ,
        posts (eventsOf thread state.history) ≤
          takes (eventsOf thread state.history) := by
    intro thread _
    exact (Nat.le_add_right _ _).trans (own.matched thread)
  have total := Finset.sum_le_sum each
  have account := own.account
  simp only [tokensHeld, Finset.sum_tsub_distrib _ each, sum_takes,
    sum_posts] at total ⊢
  omega

/-- A thread about to post holds a token, so the counter is not full. -/
theorem OwnTokens.room
    [Fintype Thread]
    (own : OwnTokens value state)
    (posting : (state.pc thread).posting = true) :
    state.sem.count.toNat < value.toNat := by
  have matched := own.matched thread
  rw [posting, Bool.toNat_true] at matched
  have held : 0 < tokensHeld state.history thread := by
    unfold tokensHeld
    omega
  have single :
      tokensHeld state.history thread ≤
        ∑ thread, tokensHeld state.history thread :=
    Finset.single_le_sum (fun _ _ => Nat.zero_le _)
      (Finset.mem_univ thread)
  have account := own.sum_tokensHeld
  omega

/-- Every step of a thread keeps the account. -/
theorem Step.ownTokens
    [Fintype Thread]
    (step : Step state thread later)
    (own : OwnTokens value state) :
    OwnTokens value later := by
  have outside :
      ((Function.update state.pc thread .idle) thread).posting = false := by
    rw [Function.update_self]
    rfl
  have others :
      ∀ other,
        other ≠ thread →
        ((Function.update state.pc thread .idle) other).posting =
          (state.pc other).posting := by
    intro other notActor
    rw [Function.update_of_ne notActor]
  cases step with
  | waitSleeps here empty =>
      exact own.setPc (by rintro ⟨⟩)
  | waitTakes sem here takes =>
      obtain ⟨available, rfl⟩ := semWaitTest_some takes
      refine own.ret rfl rfl ?_ (Nat.zero_le _) outside others rfl
      exact SyncSem.take_toNat available
  | trywait result sem here ends =>
      rcases syncSemTrywait_cases ends with
        ⟨_, rfl, rfl⟩ | ⟨available, rfl, rfl⟩
      · exact own.ret rfl rfl rfl (Nat.zero_le _) outside others rfl
      · refine own.ret rfl rfl ?_ (Nat.zero_le _) outside others rfl
        exact SyncSem.take_toNat available
  | post targets here signals =>
      have posting : (state.pc thread).posting = true := by
        rw [here]
        rfl
      have room := own.room posting
      have wraps := syncSemPost_toNat state.sem
      have small := value.toNat_lt
      have quiet :=
        CondVar.notify_stable signals Pc.posting wake_posting
      refine own.ret rfl rfl ?_ ?_ ((quiet thread).trans outside) ?_ rfl
      · simp only [State.ret_sem, Event.isTake, Event.isPost]
        simp
        omega
      · rw [posting]
        exact Bool.toNat_le _
      · intro other notActor
        exact (quiet other).trans (others other notActor)
  | getvalue here =>
      exact own.ret rfl rfl rfl (Nat.zero_le _) outside others rfl

/-- The account holds in every reachable state. -/
theorem reachable_ownTokens
    [Fintype Thread]
    (reachable : (system value ownTokens).Reachable state) :
    OwnTokens value state := by
  refine System.Reachable.invariant (OwnTokens value) ?_ ?_ reachable
  · intro first initial
    subst initial
    exact ⟨rfl, fun _ => le_refl _, rfl⟩
  · intro before after _ own next
    cases next with
    | call thread request pc here may starts =>
        refine own.setPc ?_
        intro posting
        exact may (Request.start_posting starts posting)
    | invalid thread request here may fails =>
        refine own.ret rfl rfl ?_ ?_ ?_ ?_ rfl
        · simp [Event.isTake, Event.isPost]
        · simp [Event.isPost]
        · simp [State.ret, Pc.posting]
        · intro other notActor
          simp [State.ret, notActor]
    | step thread step =>
        exact step.ownTokens own
    | spurious thread here =>
        exact own.setPc (by rintro ⟨⟩)

/-- What threads that post only their own tokens can rely on. -/
structure KExclusion
    [Fintype Thread]
    (value : UInt32)
    (state : State Thread) : Prop where
  account :
    state.sem.count.toNat + ∑ thread, tokensHeld state.history thread =
      value.toNat
  holders :
    population (fun held => decide (0 < held))
      (tokensHeld state.history) ≤ value.toNat
  bounded :
    state.sem.count ≤ state.sem.maxCount
  unwrapped :
    (state.sem.count.toNat : Int) = balance value state.history
  busy :
    (syncSemTrywait state.sem).1 = .busy ↔
      ∑ thread, tokensHeld state.history thread = value.toNat
  single :
    (∀ thread, tokensHeld state.history thread ≤ 1) →
      state.sem.count.toNat +
          population (fun held => decide (0 < held))
            (tokensHeld state.history) =
        value.toNat

omit [DecidableEq Thread] in
/-- Holders are counted by their tokens when each of them holds one. -/
theorem population_eq_sum
    [Fintype Thread]
    {held : Thread → Nat}
    (single : ∀ thread, held thread ≤ 1) :
    population (fun held => decide (0 < held)) held =
      ∑ thread, held thread := by
  rw [population_eq_tally]
  refine Finset.sum_congr rfl ?_
  intro thread _
  have atMostOne := single thread
  by_cases holds : 0 < held thread
  · simp only [holds, decide_true, Bool.toNat_true]
    omega
  · simp only [holds, decide_false, Bool.toNat_false]
    omega

omit [DecidableEq Thread] in
/-- There are no more holders than tokens. -/
theorem population_le_sum
    [Fintype Thread]
    (held : Thread → Nat) :
    population (fun held => decide (0 < held)) held ≤
      ∑ thread, held thread := by
  rw [population_eq_tally]
  refine Finset.sum_le_sum ?_
  intro thread _
  by_cases holds : 0 < held thread
  · simp only [holds, decide_true, Bool.toNat_true]
    exact holds
  · simp only [holds, decide_false, Bool.toNat_false]
    exact Nat.zero_le _

/-- Every token is in the counter or held by a thread. -/
theorem reachable_kExclusion
    [Fintype Thread]
    (value : UInt32)
    (state : State Thread)
    (reachable : (system value ownTokens).Reachable state) :
    KExclusion value state := by
  have own := reachable_ownTokens reachable
  have account := own.sum_tokensHeld
  refine ⟨account, ?_, ?_, ?_, ?_, ?_⟩
  · have fewer := population_le_sum (tokensHeld state.history)
    omega
  · rw [own.maxCount, UInt32.le_iff_toNat_le]
    omega
  · have balanced := own.account
    simp only [balance]
    omega
  · unfold syncSemTrywait
    by_cases empty : state.sem.count = 0
    · have zero : state.sem.count.toNat = 0 := UInt32.toNat_inj.mpr empty
      rw [if_pos empty]
      exact ⟨fun _ => by omega, fun _ => rfl⟩
    · have positive : state.sem.count.toNat ≠ 0 := by
        intro zero
        exact empty (UInt32.toNat_inj.mp zero)
      rw [if_neg empty]
      exact ⟨by rintro ⟨⟩, fun all => by omega⟩
  · intro single
    rw [population_eq_sum single]
    exact account

end

/-- One thread holds the only token, and another one is told so. -/
theorem reachable_kExclusion_busy :
    ∃ state : State (Fin 2),
      (system 1 ownTokens).Reachable state ∧
        state.history.map Event.result = [.success, .busy] ∧
        KExclusion 1 state := by
  have start : (system 1 (@ownTokens (Fin 2) _)).Reachable _ :=
    .start rfl
  have waits := start.step (.call 0 .wait _ rfl nofun rfl)
  have holds := waits.step (.step 0 (.waitTakes _ rfl rfl))
  have tries := holds.step (.call 1 .trywait _ rfl nofun rfl)
  have busy := tries.step (.step 1 (.trywait _ _ rfl rfl))
  exact ⟨_, busy, rfl, reachable_kExclusion 1 _ busy⟩

/--
A thread that takes two tokens is one holder: the counter and the number of
holders do not add up to the initial value.
-/
theorem exists_two_tokens :
    ¬ ∀ state : State Unit,
      (system 2 ownTokens).Reachable state →
      state.sem.count.toNat +
          population (fun held => decide (0 < held))
            (tokensHeld state.history) =
        2 := by
  intro balanced
  have start : (system 2 (@ownTokens Unit _)).Reachable _ :=
    .start rfl
  have waits := start.step (.call () .wait _ rfl nofun rfl)
  have holds := waits.step (.step () (.waitTakes _ rfl rfl))
  have again := holds.step (.call () .wait _ rfl nofun rfl)
  have holdsTwo := again.step (.step () (.waitTakes _ rfl rfl))
  have sum := balanced _ holdsTwo
  exact absurd sum (by decide)

end SThread.Sync
