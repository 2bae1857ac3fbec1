import Mathlib.Order.Bounds.Basic
import SThread.Memory.System

namespace SThread.Memory

open SThread.Library

/-!
# Where the initialising loop writes

`memory_pool_create` rounds the object size and multiplies it with the number
of objects in `size_t`, and its loop trusts the number of objects rather than
the number of bytes it has.  It stays inside its memory exactly when the
rounded product is a `size_t`.
-/

/-- The nodes that the initialising loop writes to. -/
def threadedNodes
    (objectSize : Nat) :
    Nat → Nat → List Nat
  | 0, _ => []
  | remaining + 1, ptr =>
      ptr :: threadedNodes objectSize remaining (ptr + objectSize)

/-- The loop sets the links of these nodes, one after the other, and no other. -/
theorem threadFreeList_eq_foldl
    (objectSize remaining ptr freeList : Nat)
    (bytes : Bytes) :
    threadFreeList objectSize remaining ptr freeList bytes =
      (threadedNodes objectSize remaining ptr).foldl
        (fun list node => (node, setNodeNext list.2 node list.1))
        (freeList, bytes) := by
  induction remaining generalizing ptr freeList bytes with
  | zero =>
      rfl
  | succ remaining inductionHypothesis =>
      simp [threadFreeList, threadedNodes, inductionHypothesis]

/-- The nodes are the blocks of the row. -/
theorem threadedNodes_eq_row
    (objectSize remaining ptr : Nat) :
    threadedNodes objectSize remaining ptr =
      row ptr objectSize remaining := by
  induction remaining generalizing ptr with
  | zero =>
      simp [threadedNodes, row]
  | succ remaining inductionHypothesis =>
      rw [threadedNodes, row_succ, inductionHypothesis]

/-- A pool whose blocks lie inside its memory. -/
structure Bounded
    (objectSize initialCount : UInt64)
    (pool : MemoryPool) : Prop where
  object :
    IsLeast
      { size : Nat |
        sizeofPointer.toNat ∣ size ∧
          objectSize.toNat ≤ size ∧
          sizeofPoolNode.toNat ≤ size }
      pool.objectSize.toNat
  memory :
    pool.memorySize.toNat =
      pool.objectSize.toNat * initialCount.toNat
  nodes :
    ∀ node ∈
        threadedNodes pool.objectSize.toNat initialCount.toNat pool.memory,
      pool.memory ≤ node ∧
        node + sizeofPoolNode.toNat ≤
          pool.memory + pool.memorySize.toNat

/-- The rounded size is the least one that can be rounded to. -/
theorem roundedSize_isLeast
    (requested : Nat) :
    IsLeast
      { size : Nat |
        sizeofPointer.toNat ∣ size ∧
          requested ≤ size ∧
          sizeofPoolNode.toNat ≤ size }
      (roundedSize requested) := by
  simp only [sizeofPointer, sizeofPoolNode, UInt64.reduceToNat]
  unfold roundedSize
  constructor
  · refine ⟨Nat.dvd_mul_left 8 _, ?_, ?_⟩
    · omega
    · omega
  · intro size bounds
    obtain ⟨⟨count, rfl⟩, enough, node⟩ := bounds
    omega

/--
A pool that `memory_pool_create` returns lies inside its memory exactly when
the rounded product is a `size_t`.
-/
theorem memoryPoolCreate_bounded_iff
    {resources : Resources}
    {objectSize initialCount : UInt64}
    {before after : Bytes}
    {pool : MemoryPool}
    (creates :
      memoryPoolCreate resources objectSize initialCount before =
        some (pool, after)) :
    Bounded objectSize initialCount pool ↔
      roundedSize objectSize.toNat * initialCount.toNat < 2 ^ 64 := by
  have created := memoryPoolCreate_spec creates
  constructor
  · intro bounded
    have size :
        pool.objectSize.toNat = roundedSize objectSize.toNat :=
      bounded.object.unique (roundedSize_isLeast objectSize.toNat)
    rw [← size, ← bounded.memory]
    exact pool.memorySize.toNat_lt
  · intro fits
    have memory := created.memorySize_toNat fits
    refine ⟨?_, memory, ?_⟩
    · rw [created.objectSize_toNat fits]
      exact roundedSize_isLeast objectSize.toNat
    · intro node written
      rw [threadedNodes_eq_row] at written
      have within := row_within written
      have wide := le_roundedSize objectSize.toNat
      have size := created.objectSize_toNat fits
      rw [memory, Nat.mul_comm]
      simp only [sizeofPoolNode, UInt64.reduceToNat]
      omega

/-- A pool of two small blocks lies inside its memory. -/
theorem memoryPoolCreate_bounded_small :
    Bounded 5 2 smallPool :=
  (memoryPoolCreate_bounded_iff smallPool_created).mpr (by decide)

/-- A pool of two objects of 2⁶³ + 8 bytes each. -/
def wrappedPool : MemoryPool where
  memory := 4096
  memorySize := 16
  objectSize := 0x8000000000000008
  totalCount := 2
  freeList := 4096 + 0x8000000000000008
  allocatedCount := 0

/-- It gets 16 bytes, and its second node lies outside of them. -/
theorem exists_not_bounded :
    ¬ ∀ (resources : Resources) (objectSize initialCount : UInt64)
        (before after : Bytes) (pool : MemoryPool),
      resources.Valid →
      memoryPoolCreate resources objectSize initialCount before =
        some (pool, after) →
      Bounded objectSize initialCount pool := by
  intro always
  have size :
      adjustObjectSize 0x8000000000000008 = 0x8000000000000008 := by
    decide
  have creates :
      memoryPoolCreate smallResources 0x8000000000000008 2
          (fun _ => 0) =
        some (wrappedPool,
          setNodeNext (setNodeNext (fun _ => 0) 4096 0)
            (4096 + 0x8000000000000008) 4096) := by
    simp [memoryPoolCreate, size, smallResources, threadFreeList,
      wrappedPool]
  have bounded :=
    always smallResources _ _ _ _ _ smallResources_valid creates
  have second :
      4096 + 0x8000000000000008 ∈
        threadedNodes wrappedPool.objectSize.toNat
          (UInt64.toNat 2) wrappedPool.memory := by
    simp [threadedNodes, wrappedPool]
  have inside := (bounded.nodes _ second).2
  revert inside
  decide

end SThread.Memory
