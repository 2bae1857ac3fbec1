import SThread.ThreadPool.Core

namespace SThread.ThreadPool

open SThread.Library
open SThread.Scheduler

/-!
# Invariants of the threads

Most invariants of the pool say what the shared fields look like to a thread at
some program point.  Such an invariant holds in every reachable state when the
steps of the thread itself establish it and the steps of the other threads do
not disturb it.

Many invariants only concern the threads inside one of the two functions that
clients and tasks call; the steps of the other functions keep those anyway.
-/

section Functions

variable
    {Func Arg Local : Type}

/-- The thread is inside `thread_pool_submit`. -/
def Pc.submits : Pc Func Arg Local → Bool
  | .submitting _ _ _ => true
  | _ => false

/-- The thread is inside `thread_pool_wait`. -/
def Pc.waits : Pc Func Arg Local → Bool
  | .waiting _ _ _ => true
  | _ => false

variable
    {Owner : Type}
    {behaviour : TaskBehaviour Func Arg Local}
    {thread : Owner}
    {numThreads : Nat}
    {shared shared' : Shared Owner Func Arg}
    {place place' : Place Func Arg Local}
    {property : Pc Func Arg Local → Prop}

/-- Only steps of `thread_pool_submit` end inside `thread_pool_submit`. -/
theorem LocalStep.of_submit
    (step :
      LocalStep behaviour thread numThreads
        shared place shared' place')
    (outside : ∀ pc, pc.submits = false → property pc)
    (submit :
      SubmitStep behaviour shared place shared' place' →
      property place'.pc) :
    property place'.pc := by
  cases step with
  | worker step =>
      cases step <;> exact outside _ rfl
  | submit step =>
      exact submit step
  | wait step =>
      cases step with
      | ret call since caller =>
          cases caller <;> exact outside _ rfl
      | _ =>
          exact outside _ rfl
  | destroy step =>
      cases step <;> exact outside _ rfl

/-- Only steps of `thread_pool_wait` end inside `thread_pool_wait`. -/
theorem LocalStep.of_wait
    (step :
      LocalStep behaviour thread numThreads
        shared place shared' place')
    (outside : ∀ pc, pc.waits = false → property pc)
    (wait :
      WaitStep behaviour thread shared place shared' place' →
      property place'.pc) :
    property place'.pc := by
  cases step with
  | worker step =>
      cases step <;> exact outside _ rfl
  | submit step =>
      cases step with
      | callNull call caller arg priority may
      | failed call submission caller ret failed
      | acknowledged call submission caller =>
          cases caller <;> exact outside _ rfl
      | _ =>
          exact outside _ rfl
  | wait step =>
      exact wait step
  | destroy step =>
      cases step <;> exact outside _ rfl

end Functions

section

variable
    {config : Config}
    {Client Func Arg Local : Type}
    [DecidableEq Client]
    {behaviour : TaskBehaviour Func Arg Local}
    {state later : State config Client Func Arg Local}

/-- A thread takes the steps of the function it is in. -/
theorem Step.of_place
    {thread : Thread config.numThreads Client}
    {place place' : Place Func Arg Local}
    {shared' : Shared (Thread config.numThreads Client) Func Arg}
    (here : state.place thread = place)
    (step :
      LocalStep behaviour thread config.numThreads
        state.shared place shared' place') :
    ∃ next, Step behaviour state thread next := by
  subst here
  exact ⟨_, .own step⟩

/-- What the steps outside the functions of the pool cannot disturb. -/
structure Undisturbed
    (behaviour : TaskBehaviour Func Arg Local)
    (property :
      Thread config.numThreads Client →
      Shared (Thread config.numThreads Client) Func Arg →
      Pc Func Arg Local → Prop) : Prop where
  other :
    ∀ thread other shared place shared' place' pc,
      other ≠ thread →
      LocalStep behaviour thread config.numThreads
        shared place shared' place' →
      property thread shared place.pc →
      property other shared pc →
      property other shared' pc
  wake :
    ∀ thread shared completed since caller wake,
      property thread shared
        (.waiting (.sleeping completed .asleep) since caller) →
      property thread shared
        (.waiting (.sleeping completed wake) since caller)
  broadcast :
    ∀ thread shared,
      property thread shared .broadcasting →
      property thread shared .unlocking
  destroying :
    ∀ thread shared stage stage',
      property thread shared (.destroying stage) →
      property thread shared (.destroying stage')

/-- An undisturbed property survives a step its thread can take with it. -/
theorem Undisturbed.next
    {property :
      Thread config.numThreads Client →
      Shared (Thread config.numThreads Client) Func Arg →
      Pc Func Arg Local → Prop}
    (undisturbed : Undisturbed behaviour property)
    (own :
      ∀ thread shared' place',
        later = state.put thread shared' place' →
        LocalStep behaviour thread config.numThreads
          state.shared (state.place thread) shared' place' →
        property thread shared' place'.pc)
    (next : Next behaviour state later)
    (holds : ∀ thread, property thread state.shared (state.pc thread))
    (thread : Thread config.numThreads Client) :
    property thread later.shared (later.pc thread) := by
  have stays :
      ∀ actor pc,
        property actor state.shared pc →
        property thread state.shared
          (Function.update state.pc actor pc thread) := by
    intro actor pc here
    by_cases same : thread = actor
    · subst same
      simpa using here
    · simpa [same] using holds thread
  cases next with
  | step actor allocated step =>
      cases step with
      | queue step =>
          exact holds thread
      | @own shared' place' step =>
          by_cases same : thread = actor
          · subst same
            simpa [State.put] using own thread _ _ rfl step
          · have kept :=
              undisturbed.other actor thread _ _ _ _ _ same step
                (holds actor) (holds thread)
            simpa [State.put, same] using kept
      | broadcast here =>
          have moved :=
            stays actor .unlocking
              (undisturbed.broadcast actor _ (here ▸ holds actor))
          simp only [CondVar.broadcast]
          split
          · rename_i asleep
            obtain ⟨completed, since, caller, shape⟩ :=
              Pc.asleepWait_iff.mp asleep
            rw [shape] at moved ⊢
            exact undisturbed.wake thread _ completed since caller
              .notified moved
          · exact moved
      | join index here inRange ended
      | destroyQueue heap here frees =>
          exact stays actor _
            (undisturbed.destroying actor _ _ _ (here ▸ holds actor))
      | destroyQueueFault here fails =>
          exact holds thread
  | queueSpurious actor allocated wakes =>
      exact holds thread
  | waitSpurious actor completed since caller allocated here =>
      exact stays actor _
        (undisturbed.wake actor _ completed since caller .spurious
          (here ▸ holds actor))

/-- A property every thread keeps for itself and for the others. -/
structure ThreadInvariant
    (behaviour : TaskBehaviour Func Arg Local)
    (property :
      Thread config.numThreads Client →
      Shared (Thread config.numThreads Client) Func Arg →
      Pc Func Arg Local → Prop) : Prop
    extends Undisturbed behaviour property where
  start :
    ∀ thread,
      property thread (State.initial config Client Func Arg Local).shared
        (State.start thread)
  own :
    ∀ thread shared place shared' place',
      LocalStep behaviour thread config.numThreads
        shared place shared' place' →
      property thread shared place.pc →
      property thread shared' place'.pc

omit [DecidableEq Client] in
/-- A property of the threads inside `thread_pool_submit` is kept by its steps. -/
theorem ThreadInvariant.of_submit
    {property :
      Thread config.numThreads Client →
      Shared (Thread config.numThreads Client) Func Arg →
      Pc Func Arg Local → Prop}
    (outside :
      ∀ thread shared pc,
        pc.submits = false → property thread shared pc)
    (other :
      ∀ thread other shared place shared' place' pc,
        other ≠ thread →
        LocalStep behaviour thread config.numThreads
          shared place shared' place' →
        property thread shared place.pc →
        property other shared pc →
        property other shared' pc)
    (own :
      ∀ thread shared place shared' place',
        SubmitStep behaviour shared place shared' place' →
        property thread shared place.pc →
        property thread shared' place'.pc) :
    ThreadInvariant behaviour property where
  other := other
  wake := by
    intros
    exact outside _ _ _ rfl
  broadcast := by
    intros
    exact outside _ _ _ rfl
  destroying := by
    intros
    exact outside _ _ _ rfl
  start := by
    intro thread
    cases thread <;> exact outside _ _ _ rfl
  own := by
    intro thread shared place shared' place' step before
    refine step.of_submit (outside thread shared') ?_
    intro step
    exact own thread shared place shared' place' step before

/-- Such a property holds of every thread of a reachable pool. -/
theorem ThreadInvariant.reachable
    {property :
      Thread config.numThreads Client →
      Shared (Thread config.numThreads Client) Func Arg →
      Pc Func Arg Local → Prop}
    (kept : ThreadInvariant behaviour property)
    (reachable :
      (system config Client behaviour).Reachable state)
    (thread : Thread config.numThreads Client) :
    property thread state.shared (state.pc thread) := by
  refine System.Reachable.invariant
    (fun state => ∀ thread, property thread state.shared (state.pc thread))
    ?_ ?_ reachable thread
  · intro first initial
    subst initial
    exact kept.start
  · intro before after _ holds next
    exact kept.next
      (fun actor shared' place' _ step =>
        kept.own actor _ _ _ _ step (holds actor))
      next holds

/-- A property of the shared fields that local steps keep holds forever. -/
theorem reachable_shared
    (property :
      Shared (Thread config.numThreads Client) Func Arg → Prop)
    (initially :
      property (State.initial config Client Func Arg Local).shared)
    (preserved :
      ∀ thread shared place shared' place',
        LocalStep behaviour thread config.numThreads
          shared place shared' place' →
        property shared →
        property shared')
    (reachable :
      (system config Client behaviour).Reachable state) :
    property state.shared := by
  have kept :
      ThreadInvariant behaviour
        (fun (_ : Thread config.numThreads Client) shared _ =>
          property shared) := {
    other := by
      intro thread other shared place shared' place' pc _ step holds _
      exact preserved thread shared place shared' place' step holds
    wake := fun _ _ _ _ _ _ => id
    broadcast := fun _ _ => id
    destroying := fun _ _ _ _ => id
    start := fun _ => initially
    own := preserved }
  exact kept.reachable reachable .destroyer

end

end SThread.ThreadPool
