import SThread.ThreadPool.Places

namespace SThread.ThreadPool

open SThread.Library
open SThread.Scheduler

/-!
# The waiters of `wait_cond`

Who holds `wait_lock`, and why nobody sleeps through a completion.  A waiter
goes by the value of `completed_tasks` it has loaded.  As soon as that value is
out of date some worker has still to broadcast, and the broadcast needs
`wait_lock`, which the waiter gives up only by falling asleep.
-/

namespace Pc

variable
    {Func Arg Local : Type}

/-- The thread is between locking and unlocking `wait_lock`. -/
def holdsWait : Pc Func Arg Local → Bool
  | .broadcasting => true
  | .unlocking => true
  | .waiting (.testing _ _) _ _ => true
  | .waiting (.unlocking _ _) _ _ => true
  | _ => false

/-- The value of `completed_tasks` a waiter goes by. -/
def seen : Pc Func Arg Local → Option Nat
  | .waiting (.testing completed _) _ _ => completed
  | .waiting (.sleeping completed .asleep) _ _ => some completed
  | _ => none

/-- Between the increment of `completed_tasks` and the broadcast. -/
def announcing : Pc Func Arg Local → Bool
  | .locking => true
  | .broadcasting => true
  | _ => false

/-- A waiter that goes by a value holds the lock or sleeps. -/
theorem holds_or_asleep_of_seen
    {pc : Pc Func Arg Local}
    {completed : Nat}
    (seen : pc.seen = some completed) :
    pc.holdsWait = true ∨ pc.asleepWait = true := by
  cases pc with
  | waiting stage since caller =>
      cases stage with
      | testing completed submitted =>
          exact Or.inl rfl
      | sleeping completed wake =>
          cases wake with
          | asleep =>
              exact Or.inr rfl
          | _ =>
              simp [Pc.seen] at seen
      | _ =>
          simp [Pc.seen] at seen
  | _ =>
      simp [Pc.seen] at seen

/-- Only workers announce completions. -/
theorem role_of_announcing
    {pc : Pc Func Arg Local}
    (announces : pc.announcing = true) :
    pc.role = .worker := by
  cases pc <;> simp [announcing] at announces <;> rfl

/-- What a waiter knows of `submitted_tasks`. -/
def Behind
    (submittedTasks : Nat) :
    Pc Func Arg Local → Prop
  | .waiting (.testing _ (some submitted)) _ _ =>
      submitted ≤ submittedTasks
  | .waiting (.sleeping completed _) _ _ =>
      completed < submittedTasks
  | _ => True

/-- More submissions do not disturb a waiter. -/
theorem Behind.mono
    {before after : Nat}
    {pc : Pc Func Arg Local}
    (behind : pc.Behind before)
    (grows : before ≤ after) :
    pc.Behind after := by
  cases pc with
  | waiting stage since caller =>
      cases stage with
      | testing completed submitted =>
          cases submitted with
          | none =>
              trivial
          | some submitted =>
              exact Nat.le_trans behind grows
      | sleeping completed wake =>
          exact Nat.lt_of_lt_of_le behind grows
      | _ =>
          trivial
  | _ =>
      trivial

end Pc

namespace Caller

variable
    {Func Arg Local : Type}

/-- Own code holds no lock, looks at no counter and announces nothing. -/
@[simp] theorem resume_unrelated
    (behaviour : TaskBehaviour Func Arg Local)
    (ret : Int)
    (caller : Caller Func Arg Local) :
    (caller.resume behaviour ret).holdsWait = false ∧
      (caller.resume behaviour ret).seen = none ∧
      (caller.resume behaviour ret).announcing = false := by
  cases caller <;> exact ⟨rfl, rfl, rfl⟩

/-- The same before a call. -/
@[simp] theorem place_unrelated
    (caller : Caller Func Arg Local) :
    caller.place.holdsWait = false ∧
      caller.place.seen = none ∧
      caller.place.announcing = false := by
  cases caller <;> exact ⟨rfl, rfl, rfl⟩

end Caller

namespace LocalStep

variable
    {Owner Func Arg Local : Type}
    {behaviour : TaskBehaviour Func Arg Local}
    {thread : Owner}
    {numThreads : Nat}
    {shared shared' : Shared Owner Func Arg}
    {place place' : Place Func Arg Local}

/-- A step keeps `wait_lock` as it is, takes it, or gives it back. -/
theorem waitLock
    (step :
      LocalStep behaviour thread numThreads
        shared place shared' place') :
    (shared'.waitLock = shared.waitLock ∧
        place'.pc.holdsWait = place.pc.holdsWait) ∨
      (shared.waitLock = none ∧
        shared'.waitLock = some thread ∧
        place'.pc.holdsWait = true) ∨
      (place.pc.holdsWait = true ∧
        shared'.waitLock = none ∧
        place'.pc.holdsWait = false) := by
  cases step with
  | worker step =>
      cases step with
      | lock call free =>
          exact Or.inr (Or.inl ⟨free, rfl, rfl⟩)
      | unlock call =>
          exact Or.inr (Or.inr ⟨rfl, rfl, rfl⟩)
      | _ =>
          exact Or.inl ⟨rfl, rfl⟩
  | submit step =>
      cases step with
      | callNull call caller arg priority may
      | call call caller func arg priority may
      | failed call submission caller ret failed
      | acknowledged call submission caller =>
          exact Or.inl ⟨rfl, by cases caller <;> rfl⟩
      | _ =>
          exact Or.inl ⟨rfl, rfl⟩
  | wait step =>
      cases step with
      | lock call since caller free
      | wake call completed wake since caller awake free =>
          exact Or.inr (Or.inl ⟨free, rfl, rfl⟩)
      | sleep call completed submitted since caller behind
      | unlock call completed submitted since caller =>
          exact Or.inr (Or.inr ⟨rfl, rfl, rfl⟩)
      | call call caller may
      | ret call since caller =>
          exact Or.inl ⟨rfl, by cases caller <;> rfl⟩
      | _ =>
          exact Or.inl ⟨rfl, rfl⟩
  | destroy step =>
      cases step <;> exact Or.inl ⟨rfl, rfl⟩

/-- A waiter goes by an old value or by the present one. -/
theorem seen
    (step :
      LocalStep behaviour thread numThreads
        shared place shared' place')
    {completed : Nat}
    (isSeen : place'.pc.seen = some completed) :
    place.pc.seen = some completed ∨
      shared'.completedTasks = completed := by
  cases step with
  | worker step =>
      cases step <;> simp [Pc.seen] at isSeen
  | submit step =>
      cases step with
      | callNull call caller arg priority may
      | failed call submission caller ret failed
      | acknowledged call submission caller =>
          simp at isSeen
      | _ =>
          simp [Pc.seen] at isSeen
  | wait step =>
      cases step with
      | loadCompleted call submitted since caller =>
          exact Or.inr (Option.some.inj isSeen)
      | loadSubmitted call completed since caller
      | sleep call completed submitted since caller behind =>
          exact Or.inl isSeen
      | ret call since caller =>
          simp at isSeen
      | _ =>
          simp [Pc.seen] at isSeen
  | destroy step =>
      cases step <;> simp [Pc.seen] at isSeen

/-- `completed_tasks` changes only by an increment yet to be announced. -/
theorem completedTasks
    (step :
      LocalStep behaviour thread numThreads
        shared place shared' place') :
    shared'.completedTasks = shared.completedTasks ∨
      (shared'.completedTasks = shared.completedTasks + 1 ∧
        place'.pc.announcing = true) := by
  cases step with
  | worker step =>
      cases step with
      | complete call task =>
          exact Or.inr ⟨rfl, rfl⟩
      | _ =>
          exact Or.inl rfl
  | submit step =>
      cases step <;> exact Or.inl rfl
  | wait step =>
      cases step <;> exact Or.inl rfl
  | destroy step =>
      cases step <;> exact Or.inl rfl

/-- `submitted_tasks` only grows. -/
theorem submittedTasks
    (step :
      LocalStep behaviour thread numThreads
        shared place shared' place') :
    shared.submittedTasks ≤ shared'.submittedTasks := by
  cases step with
  | worker step =>
      cases step <;> exact Nat.le_refl _
  | submit step =>
      cases step with
      | counted submission caller =>
          exact Nat.le_succ _
      | _ =>
          exact Nat.le_refl _
  | wait step =>
      cases step <;> exact Nat.le_refl _
  | destroy step =>
      cases step <;> exact Nat.le_refl _

/-- A completion is announced by nothing but the broadcast. -/
theorem announcing
    (step :
      LocalStep behaviour thread numThreads
        shared place shared' place')
    (announces : place.pc.announcing = true) :
    place'.pc.announcing = true := by
  cases step with
  | worker step =>
      cases step with
      | lock call free =>
          rfl
      | _ =>
          simp [Pc.announcing] at announces
  | submit step =>
      cases step with
      | callNull call caller arg priority may
      | call call caller func arg priority may =>
          simp at announces
      | _ =>
          simp [Pc.announcing] at announces
  | wait step =>
      cases step with
      | call call caller may =>
          simp at announces
      | _ =>
          simp [Pc.announcing] at announces
  | destroy step =>
      cases step <;> simp [Pc.announcing] at announces

/-- A waiter falls asleep only behind `submitted_tasks`. -/
theorem behind
    (step :
      LocalStep behaviour thread numThreads
        shared place shared' place')
    (before : place.pc.Behind shared.submittedTasks) :
    place'.pc.Behind shared'.submittedTasks := by
  have kept := before.mono step.submittedTasks
  refine step.of_wait ?_ ?_
  · intro pc outside
    cases pc <;> first | contradiction | trivial
  · intro step
    cases step with
    | loadCompleted call submitted since caller =>
        cases submitted <;> exact kept
    | loadSubmitted call completed since caller =>
        exact Nat.le_refl _
    | sleep call completed submitted since caller behind =>
        exact Nat.lt_of_lt_of_le behind before
    | ret call since caller =>
        cases caller <;> trivial
    | _ =>
        trivial

end LocalStep

section

variable
    {config : Config}
    {Client Func Arg Local : Type}
    [DecidableEq Client]
    {behaviour : TaskBehaviour Func Arg Local}
    {state later : State config Client Func Arg Local}

omit [DecidableEq Client] in
/-- `wait_lock` is held by the thread that is inside its critical section. -/
theorem holdsWait_kept :
    ThreadInvariant behaviour
      (fun (thread : Thread config.numThreads Client)
          (shared : Shared (Thread config.numThreads Client) Func Arg)
          (pc : Pc Func Arg Local) =>
        pc.holdsWait = true ↔ shared.waitLock = some thread) where
  other := by
    intro thread other shared place shared' place' pc different step
      own holds
    rcases step.waitLock with ⟨same, _⟩ | ⟨free, taken, _⟩ |
      ⟨held, given, _⟩
    · rw [same]
      exact holds
    · rw [taken, holds, free]
      simp [different.symm]
    · rw [given, holds, own.mp held]
      simp [different.symm]
  wake _ _ _ _ _ _ :=
    id
  broadcast _ _ :=
    id
  destroying _ _ _ _ :=
    id
  start := by
    intro thread
    cases thread <;> simp [State.initial, State.start, Pc.holdsWait]
  own := by
    intro thread shared place shared' place' step holds
    rcases step.waitLock with ⟨same, stays⟩ | ⟨_, taken, now⟩ |
      ⟨_, given, now⟩
    · rw [same, stays]
      exact holds
    · simp [taken, now]
    · simp [given, now]

omit [DecidableEq Client] in
/-- Sleepers have seen fewer completions than there are submissions. -/
theorem behind_kept :
    ThreadInvariant behaviour
      (fun (_ : Thread config.numThreads Client)
          (shared : Shared (Thread config.numThreads Client) Func Arg)
          (pc : Pc Func Arg Local) =>
        pc.Behind shared.submittedTasks) where
  other := by
    intro thread other shared place shared' place' pc _ step _ behind
    exact behind.mono step.submittedTasks
  wake _ _ _ _ _ _ :=
    id
  broadcast _ _ :=
    id
  destroying _ _ _ _ :=
    id
  start := by
    intro thread
    cases thread <;> trivial
  own := by
    intro thread shared place shared' place' step behind
    exact step.behind behind

/-- A waiter that goes by an old value is about to be notified. -/
def Announced
    (state : State config Client Func Arg Local) : Prop :=
  ∀ thread completed,
    (state.pc thread).seen = some completed →
    completed < state.shared.completedTasks →
    ∃ worker, (state.pc worker).announcing = true

/-- A step of a thread leaves no waiter behind. -/
theorem Step.announced
    {thread : Thread config.numThreads Client}
    (step : Step behaviour state thread later)
    (locks :
      ∀ thread,
        (state.pc thread).holdsWait = true ↔
          state.shared.waitLock = some thread)
    (before : Announced state) :
    Announced later := by
  -- Two program points without waiters change nothing.
  have replaced :
      ∀ pc, pc.seen = none → (state.pc thread).announcing = false →
        Announced {
          state with pc := Function.update state.pc thread pc } := by
    intro pc unseen silent other completed isSeen old
    by_cases actor : other = thread
    · subst actor
      simp [unseen] at isSeen
    · obtain ⟨worker, announces⟩ :=
        before other completed (by simpa [actor] using isSeen) old
      have notActor : worker ≠ thread := by
        intro same
        simp [same, silent] at announces
      exact ⟨worker, by simpa [notActor] using announces⟩
  cases step with
  | queue step =>
      exact before
  | @own shared' place' step =>
      intro other completed isSeen old
      have announced :
          (state.pc thread).announcing = true →
            ∃ worker,
              ((state.put thread shared' place').pc worker).announcing =
                true := by
        intro announces
        exact ⟨thread, by
          simpa [State.put] using step.announcing announces⟩
      rcases step.completedTasks with same | ⟨_, announces⟩
      · have early : completed < state.shared.completedTasks := by
          rw [← same]
          exact old
        have wasSeen : (state.pc other).seen = some completed := by
          by_cases actor : other = thread
          · subst actor
            rcases step.seen (by simpa [State.put] using isSeen) with
              earlier | present
            · exact earlier
            · exact absurd old (Nat.not_lt_of_le present.le)
          · simpa [State.put, actor] using isSeen
        obtain ⟨worker, announces⟩ := before other completed wasSeen early
        by_cases actor : worker = thread
        · exact announced (actor ▸ announces)
        · exact ⟨worker, by simpa [State.put, actor] using announces⟩
      · exact ⟨thread, by simpa [State.put] using announces⟩
  | broadcast here =>
      -- Nobody else holds the lock, and nobody is left asleep.
      intro other completed isSeen old
      have held : state.shared.waitLock = some thread :=
        (locks thread).mp (by rw [here]; rfl)
      rcases Pc.holds_or_asleep_of_seen isSeen with holds | asleep
      · rw [CondVar.broadcast_stable Pc.holdsWait
          (wakeWait_stable Pc.holdsWait (fun _ _ _ => rfl))] at holds
        by_cases actor : other = thread
        · subst actor
          simp [broadcast_actor, Pc.seen] at isSeen
        · have also := (locks other).mp (by simpa [actor] using holds)
          rw [held] at also
          exact absurd (Option.some.inj also).symm actor
      · have awake :=
          (waitCond Func Arg Local).broadcast_awake
            (Function.update state.pc thread .unlocking) other
        exact absurd asleep (by simpa [waitCond] using awake)
  | join next here inRange ended
  | destroyQueue heap here frees =>
      exact replaced _ rfl (by rw [here]; rfl)
  | destroyQueueFault here fails =>
      exact before

/-- No waiter of a reachable pool is left behind. -/
theorem reachable_announced
    (reachable :
      (system config Client behaviour).Reachable state) :
    Announced state := by
  refine System.Reachable.invariant Announced ?_ ?_ reachable
  · intro first initial thread completed isSeen
    subst initial
    cases thread <;> simp [State.initial, State.start, Pc.seen] at isSeen
  · intro before after beforeReachable announced next
    cases next with
    | step thread allocated step =>
        exact step.announced (holdsWait_kept.reachable beforeReachable)
          announced
    | queueSpurious thread allocated wakes =>
        exact announced
    | waitSpurious thread completed since caller allocated here =>
        intro other seenCompleted isSeen old
        have wasSeen : (before.pc other).seen = some seenCompleted := by
          by_cases actor : other = thread
          · simp [actor, Pc.seen] at isSeen
          · simpa [actor] using isSeen
        obtain ⟨worker, announces⟩ := announced _ _ wasSeen old
        have notActor : worker ≠ thread := by
          intro same
          simp [same, here, Pc.announcing] at announces
        exact ⟨worker, by simpa [notActor] using announces⟩

/-- A worker about to give `wait_lock` back can do so. -/
theorem Step.exists_of_announced
    {thread : Thread config.numThreads Client}
    (here :
      state.pc thread = .broadcasting ∨ state.pc thread = .unlocking) :
    ∃ next, Step behaviour state thread next := by
  rcases here with broadcasting | unlocking
  · exact ⟨_, .broadcast broadcasting⟩
  · have place :
        state.place thread = ⟨.unlocking, state.queue.pc thread⟩ := by
      rw [State.place, unlocking]
    exact Step.of_place place (.worker (.unlock _))

/-- The worker has incremented `completed_tasks` and not yet broadcast. -/
def Unannounced
    (state : State config Client Func Arg Local)
    (index : Fin config.numThreads) : Prop :=
  state.pc (.worker index) = .locking ∨
    state.pc (.worker index) = .broadcasting

/-- What the waiters of `wait_cond` can rely on. -/
structure NoMissedCompletion
    (state : State config Client Func Arg Local) : Prop where
  announced :
    ∀ thread,
      (state.pc thread).asleepWait = true →
      state.shared.submittedTasks ≤ state.shared.completedTasks →
      ∃ index, Unannounced state index
  settled :
    (∀ index, ¬ Unannounced state index) →
    state.shared.submittedTasks ≤ state.shared.completedTasks →
    ∀ thread, (state.pc thread).asleepWait = false

/-- No waiter of a reachable pool misses a completion. -/
theorem reachable_noMissedCompletion
    (reachable :
      (system config Client behaviour).Reachable state) :
    NoMissedCompletion state := by
  have announced :
      ∀ thread,
        (state.pc thread).asleepWait = true →
        state.shared.submittedTasks ≤ state.shared.completedTasks →
        ∃ index, Unannounced state index := by
    intro thread asleep reached
    obtain ⟨completed, since, caller, here⟩ := Pc.asleepWait_iff.mp asleep
    have behind := behind_kept.reachable reachable thread
    rw [here] at behind
    obtain ⟨worker, announces⟩ :=
      reachable_announced reachable thread completed
        (by rw [here]; rfl) (Nat.lt_of_lt_of_le behind reached)
    have role := (reachable_core reachable).role worker
    rw [Pc.role_of_announcing announces] at role
    cases worker with
    | worker index =>
        refine ⟨index, ?_⟩
        unfold Unannounced
        cases pc : state.pc (.worker index) <;>
          simp [pc, Pc.announcing] at announces ⊢
    | _ =>
        exact Role.noConfusion role
  refine ⟨announced, ?_⟩
  intro silent reached thread
  rw [Bool.eq_false_iff]
  intro asleep
  obtain ⟨index, unannounced⟩ := announced thread asleep reached
  exact silent index unannounced

end

/-- The client sleeps although its task is complete: the worker will broadcast. -/
theorem reachable_noMissedCompletion_sleeper :
    ∃ state : State smallConfig Unit Nat Nat Unit,
      (system smallConfig Unit idleTasks).Reachable state ∧
        (state.pc (.client ())).asleepWait = true ∧
        state.shared.submittedTasks = state.shared.completedTasks ∧
        NoMissedCompletion state := by
  have start : (system smallConfig Unit idleTasks).Reachable _ :=
    .start rfl
  have called := start.step
    (.step (.client ()) (by decide)
      (.own (.submit (.call _ .client 7 8 .normal trivial))))
  have checked := called.step
    (.step (.client ()) (by decide)
      (.own (.submit (.checkPassed _ .client rfl))))
  have allocated := checked.step
    (.step (.client ()) (by decide)
      (.queue (.alloc 7 ⟨0, 8⟩ .normal 0 0 rfl rfl)))
  have linked := allocated.step
    (.step (.client ()) (by decide)
      (.queue (.pushLinked 7 ⟨0, 8⟩ 0 _ _ ∅ (.enter rfl)
        ⟨by simp, by decide⟩)))
  have counted := linked.step
    (.step (.client ()) (by decide)
      (.own (.submit (.counted _ .client))))
  have submitted := counted.step
    (.step (.client ()) (by decide)
      (.own (.submit (.acknowledged _ _ .client))))
  -- The client waits and finds its task still queued.
  have waiting := submitted.step
    (.step (.client ()) (by decide)
      (.own (.wait (.call _ .client trivial))))
  have locked := waiting.step
    (.step (.client ()) (by decide)
      (.own (.wait (.lock _ _ .client rfl))))
  have loaded := locked.step
    (.step (.client ()) (by decide)
      (.own (.wait (.loadCompleted _ _ _ .client))))
  have both := loaded.step
    (.step (.client ()) (by decide)
      (.own (.wait (.loadSubmitted _ _ _ .client))))
  have asleep := both.step
    (.step (.client ()) (by decide)
      (.own (.wait (.sleep _ _ _ _ .client (by decide)))))
  -- The worker takes the task and completes it.
  have popping := asleep.step
    (.step (.worker 0) (by decide) (.own (.worker .pop)))
  have unlinked := popping.step
    (.step (.worker 0) (by decide)
      (.queue (.popUnlinked .pop 0 _ _ ∅ (.enter rfl) rfl
        ⟨by simp, by decide⟩)))
  have taken := unlinked.step
    (.step (.worker 0) (by decide)
      (.queue (.popTaken .pop 0 _ _ rfl rfl)))
  have activating := taken.step
    (.step (.worker 0) (by decide)
      (.own (.worker (.taken _ (by decide)))))
  have entering := activating.step
    (.step (.worker 0) (by decide) (.own (.worker (.activate _ _))))
  have running := entering.step
    (.step (.worker 0) (by decide) (.own (.worker (.enter _ _))))
  have finished := running.step
    (.step (.worker 0) (by decide)
      (.own (.worker (.finish _ _ _ rfl))))
  have deactivated := finished.step
    (.step (.worker 0) (by decide) (.own (.worker (.deactivate _ _))))
  have completed := deactivated.step
    (.step (.worker 0) (by decide) (.own (.worker (.complete _ _))))
  exact ⟨_, completed, rfl, rfl, reachable_noMissedCompletion completed⟩

end SThread.ThreadPool
