import SThread.Library.Chain
import SThread.Library.Words

namespace SThread.Memory

open SThread.Library

/-!
# The memory pool

A `memory_pool_t` cuts one row of bytes from `malloc` into blocks.  The blocks
that nobody has are linked from `free_list`, and the links are stored in the
blocks themselves, in the same bytes that a client may write to while it has
the block.

`size_t` is `UInt64` with its wrap-around.  A pointer is its address, a `Nat`,
and address 0 is `NULL`.
-/

/-- `sizeof(pool_node_t)`, a struct with one pointer. -/
def sizeofPoolNode : UInt64 :=
  8

/-- `sizeof(void*)`. -/
def sizeofPointer : UInt64 :=
  8

/-- `struct memory_pool`, without its lock. -/
structure MemoryPool where
  memory : Nat
  memorySize : UInt64
  objectSize : UInt64
  totalCount : UInt64
  freeList : Nat
  allocatedCount : UInt64
  deriving DecidableEq, Repr

/-- What the calls of `memory_pool_create` to the system answer. -/
structure Resources where
  pool : Bool
  memory : UInt64 → Nat
  lock : Bool

/-- A row of bytes that `malloc` returns lies inside the address space. -/
def Resources.Valid
    (resources : Resources) : Prop :=
  ∀ size,
    resources.memory size ≠ 0 →
    resources.memory size + size.toNat ≤ 2 ^ 64

/-- `node->next`. -/
def nodeNext
    (bytes : Bytes)
    (node : Nat) : Nat :=
  load bytes node sizeofPoolNode.toNat

/-- `node->next = next`. -/
def setNodeNext
    (bytes : Bytes)
    (node next : Nat) : Bytes :=
  store bytes node next sizeofPoolNode.toNat

/-- The object size that `memory_pool_create` stores. -/
def adjustObjectSize
    (objectSize : UInt64) : UInt64 :=
  let objectSize :=
    if objectSize < sizeofPoolNode then sizeofPoolNode else objectSize
  (objectSize + sizeofPointer - 1) &&& ~~~(sizeofPointer - 1)

/-- The loop that links `remaining` blocks from `ptr` on. -/
def threadFreeList
    (objectSize : Nat) :
    Nat → Nat → Nat → Bytes → Nat × Bytes
  | 0, _, freeList, bytes => (freeList, bytes)
  | remaining + 1, ptr, freeList, bytes =>
      threadFreeList objectSize remaining (ptr + objectSize) ptr
        (setNodeNext bytes ptr freeList)

/-- `memory_pool_create`; `none` is `NULL`. -/
def memoryPoolCreate
    (resources : Resources)
    (objectSize initialCount : UInt64)
    (bytes : Bytes) : Option (MemoryPool × Bytes) :=
  if objectSize = 0 ∨ initialCount = 0 then
    none
  else
    let objectSize := adjustObjectSize objectSize
    if resources.pool = false then
      none
    else
      let memorySize := objectSize * initialCount
      let memory := resources.memory memorySize
      if memory = 0 then
        none
      else if resources.lock = false then
        none
      else
        let (freeList, bytes) :=
          threadFreeList objectSize.toNat initialCount.toNat memory 0 bytes
        some ({
          memory := memory
          memorySize := memorySize
          objectSize := objectSize
          totalCount := initialCount
          freeList := freeList
          allocatedCount := 0 }, bytes)

/-- What a pool that `memory_pool_create` returns looks like. -/
structure Created
    (resources : Resources)
    (objectSize initialCount : UInt64)
    (before : Bytes)
    (pool : MemoryPool)
    (after : Bytes) : Prop where
  someBlock : 0 < initialCount.toNat
  object : pool.objectSize = adjustObjectSize objectSize
  size : pool.memorySize = pool.objectSize * initialCount
  count : pool.totalCount = initialCount
  memory : pool.memory = resources.memory pool.memorySize
  nonNull : pool.memory ≠ 0
  nobody : pool.allocatedCount = 0
  linked :
    threadFreeList pool.objectSize.toNat initialCount.toNat
        pool.memory 0 before =
      (pool.freeList, after)

/-- `memory_pool_create` sets every field of the pool it returns. -/
theorem memoryPoolCreate_spec
    {resources : Resources}
    {objectSize initialCount : UInt64}
    {before after : Bytes}
    {pool : MemoryPool}
    (creates :
      memoryPoolCreate resources objectSize initialCount before =
        some (pool, after)) :
    Created resources objectSize initialCount before pool after := by
  simp only [memoryPoolCreate] at creates
  split at creates
  · cases creates
  next asked =>
    have someBlock : 0 < initialCount.toNat := by
      have nonZero : initialCount ≠ 0 := fun zero => asked (Or.inr zero)
      refine Nat.pos_of_ne_zero ?_
      intro zero
      exact nonZero (UInt64.toNat_inj.mp zero)
    split at creates
    · cases creates
    split at creates
    · cases creates
    next nonNull =>
      split at creates
      · cases creates
      simp only [Option.some.injEq, Prod.mk.injEq] at creates
      obtain ⟨poolIs, bytesIs⟩ := creates
      subst poolIs bytesIs
      exact ⟨someBlock, rfl, rfl, rfl, rfl, nonNull, rfl, rfl⟩

/-- `memory_pool_alloc`; a pool that is `none` is `NULL`. -/
def memoryPoolAlloc
    (bytes : Bytes) :
    Option MemoryPool → Nat × Option MemoryPool
  | none => (0, none)
  | some pool =>
      if pool.freeList = 0 then
        (0, some pool)
      else
        (pool.freeList, some { pool with
          freeList := nodeNext bytes pool.freeList
          allocatedCount := pool.allocatedCount + 1 })

/-- `memory_pool_free`. -/
def memoryPoolFree
    (bytes : Bytes)
    (ptr : Nat) :
    Option MemoryPool → Option MemoryPool × Bytes
  | none => (none, bytes)
  | some pool =>
      if ptr = 0 then
        (some pool, bytes)
      else
        (some { pool with
          freeList := ptr
          allocatedCount := pool.allocatedCount - 1 },
          setNodeNext bytes ptr pool.freeList)

/-- `memory_pool_allocated`. -/
def memoryPoolAllocated : Option MemoryPool → UInt64
  | none => 0
  | some pool => pool.allocatedCount

/-- `memory_pool_available`. -/
def memoryPoolAvailable : Option MemoryPool → UInt64
  | none => 0
  | some pool => pool.totalCount - pool.allocatedCount

/-!
## Sizes
-/

/-- The least multiple of a pointer's size that holds the request and a node. -/
def roundedSize
    (requested : Nat) : Nat :=
  (max requested 8 + 7) / 8 * 8

/-- A block has room for a node. -/
theorem le_roundedSize
    (requested : Nat) :
    8 ≤ roundedSize requested := by
  unfold roundedSize
  omega

/-- The size that is stored is the rounded one, if that is a `size_t`. -/
theorem adjustObjectSize_toNat
    {objectSize : UInt64}
    (fits : roundedSize objectSize.toNat < 2 ^ 64) :
    (adjustObjectSize objectSize).toNat = roundedSize objectSize.toNat := by
  have mask : sizeofPointer - 1 = UInt64.ofNat (2 ^ 3 - 1) := rfl
  have chosen :
      (if objectSize < sizeofPoolNode
        then sizeofPoolNode else objectSize).toNat =
        max objectSize.toNat 8 := by
    split
    · next small =>
        have less : objectSize.toNat < 8 := small
        show 8 = max objectSize.toNat 8
        omega
    · next large =>
        have atLeast : ¬ objectSize.toNat < 8 := large
        omega
  unfold roundedSize at fits ⊢
  simp only [adjustObjectSize]
  rw [mask, and_complement_low _ 3 (by omega), UInt64.toNat_sub,
    UInt64.toNat_add, chosen]
  simp only [sizeofPointer, UInt64.reduceToNat]
  omega

section Created

variable
    {resources : Resources}
    {objectSize initialCount : UInt64}
    {before after : Bytes}
    {pool : MemoryPool}

/-- A pool whose rounded product is a `size_t` has the rounded object size. -/
theorem Created.objectSize_toNat
    (created :
      Created resources objectSize initialCount before pool after)
    (fits :
      roundedSize objectSize.toNat * initialCount.toNat < 2 ^ 64) :
    pool.objectSize.toNat = roundedSize objectSize.toNat := by
  rw [created.object]
  apply adjustObjectSize_toNat
  exact Nat.lt_of_le_of_lt
    (Nat.le_mul_of_pos_right _ created.someBlock) fits

/-- And it asks `malloc` for room for all its objects. -/
theorem Created.memorySize_toNat
    (created :
      Created resources objectSize initialCount before pool after)
    (fits :
      roundedSize objectSize.toNat * initialCount.toNat < 2 ^ 64) :
    pool.memorySize.toNat =
      pool.objectSize.toNat * initialCount.toNat := by
  rw [created.size, UInt64.toNat_mul, created.objectSize_toNat fits,
    Nat.mod_eq_of_lt fits]

end Created

end SThread.Memory
