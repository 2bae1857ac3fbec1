import SThread.Api.Errors
import SThread.Library.Machine

namespace SThread.Api

open SThread.Library

/-!
# Thread handles

`sthread_create`, `sthread_self`, `sthread_detach` and `sthread_join` on the
blocks of their handles.  A pointer is the number of the `malloc` call that has
returned it, so a block that has been freed is never mistaken for a newer one.
A call that would read or free such a block does not get any further.

What `malloc` and the pthread functions return is part of each call.
-/

/-- `struct sthread_handle`. -/
structure SthreadHandle (Thread : Type) where
  thread : Thread
  detached : Bool
  deriving DecidableEq, Repr

/-- The memory of a handle. -/
structure HandleBlock (Thread : Type) where
  handle : SthreadHandle Thread
  freed : Bool
  deriving DecidableEq, Repr

/-- All handles that have been allocated so far. -/
abbrev HandleHeap (Thread : Type) :=
  List (HandleBlock Thread)

/-- What a function of the thread interface has returned and written. -/
inductive ThreadAnswer where
  | fault
  | returns (result : SthreadError) (written : Option Nat)
  | pointer (handle : Option Nat)
  deriving DecidableEq, Repr

namespace HandleHeap

variable
    {Thread : Type}

/-- The contents of a block that has not been freed. -/
def read
    (heap : HandleHeap Thread)
    (pointer : Nat) : Option (SthreadHandle Thread) :=
  match heap[pointer]? with
  | some ⟨handle, false⟩ => some handle
  | _ => none

/-- A new block. -/
def malloc
    (heap : HandleHeap Thread)
    (handle : SthreadHandle Thread) : HandleHeap Thread :=
  heap ++ [⟨handle, false⟩]

/-- Write the contents of a block. -/
def write
    (heap : HandleHeap Thread)
    (pointer : Nat)
    (handle : SthreadHandle Thread) : HandleHeap Thread :=
  heap.modify pointer fun block => { block with handle := handle }

/-- `free`. -/
def free
    (heap : HandleHeap Thread)
    (pointer : Nat) : HandleHeap Thread :=
  heap.modify pointer fun block => { block with freed := true }

end HandleHeap

section Functions

variable
    {Thread : Type}

/-- `sthread_create`; the first two flags say that an argument is not null. -/
def sthreadCreate
    (thread func allocated : Bool)
    (ret : Int)
    (created : Thread)
    (heap : HandleHeap Thread) : ThreadAnswer × HandleHeap Thread :=
  if !thread || !func then
    (.returns .invalid none, heap)
  else if !allocated then
    (.returns .nomem none, heap)
  else
    let handle := heap.length
    let heap := heap.malloc { thread := created, detached := false }
    if ret ≠ 0 then
      (.returns .system none, heap.free handle)
    else
      (.returns .success (some handle), heap)

/-- `sthread_join`. -/
def sthreadJoin
    (thread : Option Nat)
    (ret : Int)
    (heap : HandleHeap Thread) : ThreadAnswer × HandleHeap Thread :=
  match thread with
  | none => (.returns .invalid none, heap)
  | some pointer =>
      match heap.read pointer with
      | none => (.fault, heap)
      | some handle =>
          if handle.detached then
            (.returns .invalid none, heap)
          else
            let heap := heap.free pointer
            if ret ≠ 0 then
              (.returns .system none, heap)
            else
              (.returns .success none, heap)

/-- `sthread_detach`. -/
def sthreadDetach
    (thread : Option Nat)
    (ret : Int)
    (heap : HandleHeap Thread) : ThreadAnswer × HandleHeap Thread :=
  match thread with
  | none => (.returns .invalid none, heap)
  | some pointer =>
      match heap.read pointer with
      | none => (.fault, heap)
      | some handle =>
          if ret = 0 then
            (.returns .success none,
              (heap.write pointer { handle with detached := true }).free
                pointer)
          else
            (.returns .system none, heap)

/-- `sthread_self`. -/
def sthreadSelf
    (allocated : Bool)
    (self : Thread)
    (heap : HandleHeap Thread) : ThreadAnswer × HandleHeap Thread :=
  if !allocated then
    (.pointer none, heap)
  else
    (.pointer (some heap.length),
      heap.malloc { thread := self, detached := false })

end Functions

/-- A call, with what `malloc` and pthread answer it. -/
inductive ThreadCall (Thread : Type) where
  | create (thread func allocated : Bool) (ret : Int) (created : Thread)
  | join (thread : Option Nat) (ret : Int)
  | detach (thread : Option Nat) (ret : Int)
  | self (allocated : Bool) (self : Thread)
  deriving DecidableEq, Repr

/-- The functions of the thread interface on one heap. -/
def threadMachine
    {Thread : Type} :
    Machine (HandleHeap Thread) (ThreadCall Thread) ThreadAnswer where
  perform
    | .create thread func allocated ret created =>
        sthreadCreate thread func allocated ret created
    | .join thread ret => sthreadJoin thread ret
    | .detach thread ret => sthreadDetach thread ret
    | .self allocated self => sthreadSelf allocated self

/-- The handle that a call is about. -/
def ThreadCall.pointer
    {Thread : Type} :
    ThreadCall Thread → Option Nat
  | .create .. => none
  | .join thread _ => thread
  | .detach thread _ => thread
  | .self .. => none

/-- The handle that a call hands out. -/
def ThreadAnswer.handedOut : ThreadAnswer → Option Nat
  | .fault => none
  | .returns _ written => written
  | .pointer handle => handle

namespace HandleHeap

variable
    {Thread : Type}
    {heap : HandleHeap Thread}
    {pointer other : Nat}
    {handle : SthreadHandle Thread}

/-- A block that can be read is allocated. -/
theorem read_eq_some :
    heap.read pointer = some handle ↔
      heap[pointer]? = some ⟨handle, false⟩ := by
  unfold read
  cases heap[pointer]? with
  | none =>
      simp
  | some block =>
      rcases block with ⟨contents, freed⟩
      cases freed <;> simp

/-- What can be read depends on the block alone. -/
theorem read_congr
    {later : HandleHeap Thread}
    (same : later[pointer]? = heap[pointer]?) :
    later.read pointer = heap.read pointer := by
  unfold read
  rw [same]

/-- A freed block can not be read. -/
theorem read_free_self
    (heap : HandleHeap Thread)
    (pointer : Nat) :
    (heap.free pointer).read pointer = none := by
  unfold read free
  rw [List.getElem?_modify]
  cases heap[pointer]? <;> simp

/-- A new block can be read. -/
theorem read_malloc_self
    (heap : HandleHeap Thread)
    (handle : SthreadHandle Thread) :
    (heap.malloc handle).read heap.length = some handle :=
  read_eq_some.mpr List.getElem?_concat_length

/-- The others are as before. -/
theorem getElem?_free_of_ne
    (different : pointer ≠ other) :
    (heap.free pointer)[other]? = heap[other]? := by
  simp [free, different]

/-- Writing a block leaves the others. -/
theorem getElem?_write_of_ne
    (different : pointer ≠ other) :
    (heap.write pointer handle)[other]? = heap[other]? := by
  simp [write, different]

/-- A new block leaves the others. -/
theorem getElem?_malloc_of_lt
    (inside : other < heap.length) :
    (heap.malloc handle)[other]? = heap[other]? :=
  List.getElem?_append_left inside

/-- Freeing keeps the number of blocks. -/
@[simp] theorem length_free :
    (heap.free pointer).length = heap.length :=
  List.length_modify ..

/-- So does writing. -/
@[simp] theorem length_write :
    (heap.write pointer handle).length = heap.length :=
  List.length_modify ..

/-- A new block is one more. -/
@[simp] theorem length_malloc :
    (heap.malloc handle).length = heap.length + 1 := by
  simp [malloc]

end HandleHeap

section Effect

variable
    {Thread : Type}

/-- What a call may do, from the heap it finds. -/
inductive HeapEffect
    (heap : HandleHeap Thread) :
    ThreadCall Thread → ThreadAnswer → HandleHeap Thread → Prop where
  | refused
      (call : ThreadCall Thread)
      (result : SthreadError)
      (null : call.pointer = none) :
      HeapEffect heap call (.returns result none) heap
  | noPointer
      (self : Thread) :
      HeapEffect heap (.self false self) (.pointer none) heap
  | lost
      (call : ThreadCall Thread)
      (handle : SthreadHandle Thread)
      (null : call.pointer = none) :
      HeapEffect heap call (.returns .system none)
        ((heap.malloc handle).free heap.length)
  | allocated
      (call : ThreadCall Thread)
      (answer : ThreadAnswer)
      (handle : SthreadHandle Thread)
      (null : call.pointer = none)
      (out : answer.handedOut = some heap.length)
      (fresh : handle.detached = false) :
      HeapEffect heap call answer (heap.malloc handle)
  | fault
      (call : ThreadCall Thread)
      (pointer : Nat)
      (uses : call.pointer = some pointer)
      (unreadable : heap.read pointer = none) :
      HeapEffect heap call .fault heap
  | flagged
      (pointer : Nat)
      (ret : Int)
      (handle : SthreadHandle Thread)
      (here : heap.read pointer = some handle)
      (flag : handle.detached = true) :
      HeapEffect heap (.join (some pointer) ret)
        (.returns .invalid none) heap
  | joined
      (pointer : Nat)
      (handle : SthreadHandle Thread)
      (here : heap.read pointer = some handle) :
      HeapEffect heap (.join (some pointer) 0)
        (.returns .success none) (heap.free pointer)
  | dropped
      (pointer : Nat)
      (ret : Int)
      (handle : SthreadHandle Thread)
      (here : heap.read pointer = some handle)
      (fails : ret ≠ 0) :
      HeapEffect heap (.join (some pointer) ret)
        (.returns .system none) (heap.free pointer)
  | detached
      (pointer : Nat)
      (handle : SthreadHandle Thread)
      (here : heap.read pointer = some handle) :
      HeapEffect heap (.detach (some pointer) 0)
        (.returns .success none)
        ((heap.write pointer { handle with detached := true }).free pointer)
  | kept
      (pointer : Nat)
      (ret : Int)
      (handle : SthreadHandle Thread)
      (here : heap.read pointer = some handle)
      (fails : ret ≠ 0) :
      HeapEffect heap (.detach (some pointer) ret)
        (.returns .system none) heap

/-- Every call has one of these effects. -/
theorem perform_effect
    (call : ThreadCall Thread)
    (heap : HandleHeap Thread) :
    HeapEffect heap call (threadMachine.perform call heap).1
      (threadMachine.perform call heap).2 := by
  cases call with
  | create thread func allocated ret created =>
      simp only [threadMachine, sthreadCreate]
      split
      · exact .refused _ .invalid rfl
      · split
        · exact .refused _ .nomem rfl
        · split
          · exact .lost _ _ rfl
          · exact .allocated _ _ _ rfl rfl rfl
  | join thread ret =>
      simp only [threadMachine, sthreadJoin]
      cases thread with
      | none =>
          exact .refused _ .invalid rfl
      | some pointer =>
          cases here : heap.read pointer with
          | none =>
              simp only [here]
              exact .fault _ pointer rfl here
          | some handle =>
              simp only [here]
              split
              · exact .flagged pointer ret handle here (by assumption)
              · split
                · exact .dropped pointer ret handle here (by assumption)
                · rename_i returns
                  obtain rfl := not_not.mp returns
                  exact .joined pointer handle here
  | detach thread ret =>
      simp only [threadMachine, sthreadDetach]
      cases thread with
      | none =>
          exact .refused _ .invalid rfl
      | some pointer =>
          cases here : heap.read pointer with
          | none =>
              simp only [here]
              exact .fault _ pointer rfl here
          | some handle =>
              simp only [here]
              split
              · rename_i returns
                obtain rfl := returns
                exact .detached pointer handle here
              · exact .kept pointer ret handle here (by assumption)
  | self allocated self =>
      simp only [threadMachine, sthreadSelf]
      cases allocated with
      | false =>
          exact .noPointer self
      | true =>
          exact .allocated _ _ _ rfl rfl rfl

variable
    {heap later : HandleHeap Thread}
    {call : ThreadCall Thread}
    {answer : ThreadAnswer}
    {pointer : Nat}
    {handle : SthreadHandle Thread}

/-- A call on a block that is not there faults. -/
theorem perform_unreadable
    (uses : call.pointer = some pointer)
    (unreadable : heap.read pointer = none) :
    (threadMachine.perform call heap).1 = .fault := by
  cases call with
  | create _ _ _ _ _
  | self _ _ =>
      contradiction
  | join thread ret =>
      obtain rfl : thread = some pointer := uses
      simp [threadMachine, sthreadJoin, unreadable]
  | detach thread ret =>
      obtain rfl : thread = some pointer := uses
      simp [threadMachine, sthreadDetach, unreadable]

/-- A join that pthread refuses frees the handle. -/
theorem perform_join_failed
    (here : heap.read pointer = some handle)
    (unflagged : handle.detached = false)
    {ret : Int}
    (fails : ret ≠ 0) :
    threadMachine.perform (.join (some pointer) ret) heap =
      (.returns .system none, heap.free pointer) := by
  simp [threadMachine, sthreadJoin, here, unflagged, fails]

/-- A detach that succeeds frees the handle with its flag. -/
theorem perform_detach_succeeded
    (here : heap.read pointer = some handle) :
    threadMachine.perform (.detach (some pointer) 0) heap =
      (.returns .success none,
        (heap.write pointer { handle with detached := true }).free
          pointer) := by
  simp [threadMachine, sthreadDetach, here]

/-- No call makes the heap smaller. -/
theorem HeapEffect.length_le
    (effect : HeapEffect heap call answer later) :
    heap.length ≤ later.length := by
  cases effect <;> simp

/-- A call leaves all blocks alone but the one it is about. -/
theorem HeapEffect.frame
    (effect : HeapEffect heap call answer later)
    (inside : pointer < heap.length)
    (other : call.pointer ≠ some pointer) :
    later.read pointer = heap.read pointer := by
  cases effect with
  | refused _ _ _
  | noPointer _
  | fault _ _ _ _
  | flagged _ _ _ _ _
  | kept _ _ _ _ _ =>
      rfl
  | lost _ handle _ =>
      apply HandleHeap.read_congr
      rw [HandleHeap.getElem?_free_of_ne (Nat.ne_of_gt inside),
        HandleHeap.getElem?_malloc_of_lt inside]
  | allocated _ _ handle _ _ _ =>
      exact HandleHeap.read_congr
        (HandleHeap.getElem?_malloc_of_lt inside)
  | joined mine _ _
  | dropped mine _ _ _ _ =>
      have different : mine ≠ pointer := fun same =>
        other (congrArg some same)
      exact HandleHeap.read_congr
        (HandleHeap.getElem?_free_of_ne different)
  | detached mine _ _ =>
      have different : mine ≠ pointer := fun same =>
        other (congrArg some same)
      apply HandleHeap.read_congr
      rw [HandleHeap.getElem?_free_of_ne different,
        HandleHeap.getElem?_write_of_ne different]

/-- A freed block stays freed. -/
theorem HeapEffect.unreadable
    (effect : HeapEffect heap call answer later)
    (inside : pointer < heap.length)
    (gone : heap.read pointer = none) :
    later.read pointer = none := by
  by_cases mine : call.pointer = some pointer
  · cases effect with
    | refused _ _ null
    | lost _ _ null
    | allocated _ _ _ null _ _ =>
        rw [null] at mine
        contradiction
    | noPointer _ =>
        contradiction
    | fault _ _ _ _
    | flagged _ _ _ _ _
    | kept _ _ _ _ _ =>
        exact gone
    | joined _ _ _
    | dropped _ _ _ _ _
    | detached _ _ _ =>
        obtain rfl := Option.some.inj mine
        exact HandleHeap.read_free_self _ _
  · rw [effect.frame inside mine]
    exact gone

/-- A handle that a call hands out is new, and allocated. -/
theorem HeapEffect.handedOut
    (effect : HeapEffect heap call answer later)
    (out : answer.handedOut = some pointer) :
    pointer = heap.length ∧
      ∃ handle, later.read pointer = some handle := by
  cases effect with
  | allocated _ _ handle _ fresh _ =>
      obtain rfl := Option.some.inj (fresh.symm.trans out)
      exact ⟨rfl, handle, heap.read_malloc_self handle⟩
  | _ =>
      contradiction

/-- A call that frees the handle it is about is one of these. -/
theorem HeapEffect.frees
    (effect : HeapEffect heap call answer later)
    (uses : call.pointer = some pointer)
    (here : heap.read pointer = some handle)
    (gone : later.read pointer = none) :
    (∃ ret,
      call = .join (some pointer) ret ∧
        answer = .returns .success none) ∨
      (∃ ret, ret ≠ 0 ∧ call = .join (some pointer) ret) ∨
        call = .detach (some pointer) 0 := by
  cases effect with
  | refused _ _ null
  | lost _ _ null
  | allocated _ _ _ null _ _ =>
      rw [null] at uses
      contradiction
  | noPointer _ =>
      contradiction
  | fault _ _ _ _
  | flagged _ _ _ _ _
  | kept _ _ _ _ _ =>
      rw [here] at gone
      contradiction
  | joined _ _ _ =>
      obtain rfl := Option.some.inj uses
      exact Or.inl ⟨0, rfl, rfl⟩
  | dropped _ ret _ _ fails =>
      obtain rfl := Option.some.inj uses
      exact Or.inr (Or.inl ⟨ret, fails, rfl⟩)
  | detached _ _ _ =>
      obtain rfl := Option.some.inj uses
      exact Or.inr (Or.inr rfl)

/-- A call that faults is about a block that is not there. -/
theorem HeapEffect.unreadable_of_fault
    (effect : HeapEffect heap call .fault later) :
    ∃ pointer,
      call.pointer = some pointer ∧ heap.read pointer = none := by
  cases effect with
  | allocated _ _ _ _ out _ =>
      contradiction
  | fault _ pointer uses unreadable =>
      exact ⟨pointer, uses, unreadable⟩

/-- A detach succeeds only if pthread lets it. -/
theorem HeapEffect.detach_ret
    {ret : Int}
    (effect :
      HeapEffect heap (.detach (some pointer) ret)
        (.returns .success none) later) :
    ret = 0 := by
  cases effect with
  | refused _ _ null
  | allocated _ _ _ null _ _ =>
      contradiction
  | detached _ _ _ =>
      rfl

/-- An error leaves the handle alone, but for that of a failed join. -/
theorem HeapEffect.failed
    {result : SthreadError}
    (effect : HeapEffect heap call (.returns result none) later)
    (uses : call.pointer = some pointer)
    (failed : result ≠ .success) :
    later.read pointer = heap.read pointer ∨
      ∃ ret, ret ≠ 0 ∧ call = .join (some pointer) ret := by
  cases effect with
  | refused _ _ _
  | flagged _ _ _ _ _
  | kept _ _ _ _ _ =>
      exact Or.inl rfl
  | lost _ _ null
  | allocated _ _ _ null _ _ =>
      rw [null] at uses
      contradiction
  | joined _ _ _
  | detached _ _ _ =>
      contradiction
  | dropped _ ret _ _ fails =>
      obtain rfl := Option.some.inj uses
      exact Or.inr ⟨ret, fails, rfl⟩

end Effect

end SThread.Api
