import SThread.Library.Transition
import SThread.Memory.FreeList

namespace SThread.Memory

open SThread.Library

/-!
# Threads on a memory pool

Any number of threads allocate blocks from one pool, write to the blocks they
hold, and free them.  `pool->lock` is held in `memory_pool_alloc` and
`memory_pool_free` from the first access to the pool to the last one, and each
of them touches the bytes of one block at one place only, so a call is one
step.  A write to a block takes no lock and is a step of its own.

`held` is ghost state: which thread holds which block.
-/

/-- The pool, the memory, and who holds what. -/
structure State (Thread : Type) where
  pool : MemoryPool
  bytes : Bytes
  held : List (Thread × Nat)

namespace State

/-- The blocks somebody holds. -/
def heldBlocks
    {Thread : Type}
    (state : State Thread) : List Nat :=
  state.held.map Prod.snd

/-- A thread may write to its own blocks and outside the memory of the pool. -/
def MayWrite
    {Thread : Type}
    (state : State Thread)
    (thread : Thread)
    (addr : Nat) : Prop :=
  addr < state.pool.memory ∨
    state.pool.memory + state.pool.memorySize.toNat ≤ addr ∨
    ∃ block,
      (thread, block) ∈ state.held ∧
        block ≤ addr ∧
        addr < block + state.pool.objectSize.toNat

/-- Who holds what after a thread got a block, or `NULL`. -/
def heldAfter
    {Thread : Type}
    (state : State Thread)
    (thread : Thread)
    (block : Nat) : List (Thread × Nat) :=
  if block = 0 then state.held else (thread, block) :: state.held

end State

section Steps

variable
    {Thread : Type}
    [DecidableEq Thread]

/-- One step of a thread. -/
inductive Step
    (state : State Thread)
    (thread : Thread) :
    State Thread → Prop where
  | alloc
      {block : Nat}
      {pool : MemoryPool}
      (returns :
        memoryPoolAlloc state.bytes (some state.pool) =
          (block, some pool)) :
      Step state thread { state with
        pool := pool
        held := state.heldAfter thread block }
  | free
      {block : Nat}
      {pool : MemoryPool}
      {bytes : Bytes}
      (holds : block = 0 ∨ (thread, block) ∈ state.held)
      (returns :
        memoryPoolFree state.bytes block (some state.pool) =
          (some pool, bytes)) :
      Step state thread {
        pool := pool
        bytes := bytes
        held := state.held.erase (thread, block) }
  | write
      {bytes : Bytes}
      (own :
        ∀ addr,
          bytes addr ≠ state.bytes addr →
          state.MayWrite thread addr) :
      Step state thread { state with bytes := bytes }

/-- Threads on a pool that `memory_pool_create` made. -/
def memorySystem
    (Thread : Type)
    [DecidableEq Thread]
    (objectSize initialCount : UInt64) : System (State Thread) where
  init state :=
    state.held = [] ∧
      ∃ resources bytes,
        resources.Valid ∧
          memoryPoolCreate resources objectSize initialCount bytes =
            some (state.pool, state.bytes)
  next state later :=
    ∃ thread, Step state thread later

end Steps

/-- A system where every call succeeds and memory is at address 4096. -/
def smallResources : Resources where
  pool := true
  memory size := if size.toNat + 4096 ≤ 2 ^ 64 then 4096 else 0
  lock := true

/-- A new pool of two blocks on that system. -/
def smallPool : MemoryPool where
  memory := 4096
  memorySize := 16
  objectSize := 8
  totalCount := 2
  freeList := 4104
  allocatedCount := 0

/-- The links of the new pool. -/
def smallBytes : Bytes :=
  setNodeNext (setNodeNext (fun _ => 0) 4096 0) 4104 4096

/-- The system's memory is inside the address space. -/
theorem smallResources_valid :
    smallResources.Valid := by
  intro size nonNull
  simp only [smallResources] at nonNull ⊢
  split at nonNull
  · next room =>
      rw [if_pos room]
      omega
  · exact absurd rfl nonNull

/-- The new pool is what `memory_pool_create` makes. -/
theorem smallPool_created :
    memoryPoolCreate smallResources 5 2 (fun _ => 0) =
      some (smallPool, smallBytes) := by
  have size : adjustObjectSize 5 = 8 := by decide
  simp [memoryPoolCreate, size, smallResources, threadFreeList,
    smallPool, smallBytes]

/-- One of the two blocks is held. -/
def smallHeld : State Bool where
  pool := { smallPool with freeList := 4096, allocatedCount := 1 }
  bytes := smallBytes
  held := [(true, 4104)]

/-- The state where one block is held is reached. -/
theorem smallHeld_reachable :
    (memorySystem Bool 5 2).Reachable smallHeld := by
  have start :
      (memorySystem Bool 5 2).Reachable
        { pool := smallPool, bytes := smallBytes, held := [] } :=
    .start ⟨rfl, smallResources, fun _ => 0,
      smallResources_valid, smallPool_created⟩
  have returns :
      memoryPoolAlloc smallBytes (some smallPool) =
        (4104, some smallHeld.pool) :=
    rfl
  have allocated := start.step ⟨true, .alloc returns⟩
  exact allocated

end SThread.Memory
