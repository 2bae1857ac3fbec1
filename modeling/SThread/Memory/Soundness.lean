import SThread.Memory.System

namespace SThread.Memory

open SThread.Library

/-!
# Soundness of the memory pool

A block of the pool is either on the free list or held by one thread, never
both and never neither, whatever the holders write to their blocks: the links
lie in free blocks, and no holder may write there.
-/

/-- How the memory of a pool is cut into blocks. -/
structure Layout
    (objectSize initialCount : UInt64)
    (pool : MemoryPool) : Prop where
  object : pool.objectSize.toNat = roundedSize objectSize.toNat
  count : pool.totalCount = initialCount
  memory :
    pool.memorySize.toNat =
      initialCount.toNat * roundedSize objectSize.toNat
  nonNull : pool.memory ≠ 0
  room :
    pool.memory + initialCount.toNat * roundedSize objectSize.toNat ≤
      2 ^ 64

/-- What every run keeps: the free list and the held blocks are all blocks. -/
structure Kept
    {Thread : Type}
    (objectSize initialCount : UInt64)
    (state : State Thread)
    (free : List Nat) : Prop where
  layout : Layout objectSize initialCount state.pool
  chain : Chain (link state.bytes) (pointer state.pool.freeList) free
  split :
    (free ++ state.heldBlocks).Perm
      (row state.pool.memory
        (roundedSize objectSize.toNat) initialCount.toNat)
  counted : state.pool.allocatedCount.toNat = state.held.length

/-- `memory_pool_create` cuts its memory into blocks and links all of them. -/
theorem memoryPoolCreate_kept
    {Thread : Type}
    {resources : Resources}
    {objectSize initialCount : UInt64}
    {bytes : Bytes}
    {state : State Thread}
    (fits :
      roundedSize objectSize.toNat * initialCount.toNat < 2 ^ 64)
    (valid : resources.Valid)
    (nobody : state.held = [])
    (creates :
      memoryPoolCreate resources objectSize initialCount bytes =
        some (state.pool, state.bytes)) :
    ∃ free, Kept objectSize initialCount state free := by
  have created := memoryPoolCreate_spec creates
  have size := created.objectSize_toNat fits
  have memorySize :
      state.pool.memorySize.toNat =
        initialCount.toNat * roundedSize objectSize.toNat := by
    rw [created.memorySize_toNat fits, size, Nat.mul_comm]
  have nonNull := created.nonNull
  rw [created.memory] at nonNull
  have within := valid _ nonNull
  rw [← created.memory, memorySize] at within
  obtain ⟨free, chain, all⟩ :=
    threadFreeList_chain
      (le_roundedSize objectSize.toNat) created.nonNull within
      (show Chain (link bytes) (pointer 0) [] from rfl)
      (by simp)
  have linked := created.linked
  rw [size] at linked
  rw [linked] at chain
  refine ⟨free, ?_, chain, ?_, ?_⟩
  · exact ⟨size, created.count, memorySize, created.nonNull, within⟩
  · simpa [State.heldBlocks, nobody] using all
  · rw [created.nobody, nobody]
    rfl

namespace Kept

section Facts

variable
    {Thread : Type}
    {objectSize initialCount : UInt64}
    {state : State Thread}
    {free : List Nat}

/-- No block is there twice. -/
theorem nodup
    (kept : Kept objectSize initialCount state free) :
    (free ++ state.heldBlocks).Nodup := by
  refine kept.split.nodup_iff.mpr ?_
  refine row_nodup ?_
  have := le_roundedSize objectSize.toNat
  omega

/-- The free blocks and the held ones are the blocks of the pool. -/
theorem mem_iff
    (kept : Kept objectSize initialCount state free)
    {block : Nat} :
    (block ∈ free ∨ block ∈ state.heldBlocks) ↔
      ∃ index,
        index < initialCount.toNat ∧
          block =
            state.pool.memory + index * roundedSize objectSize.toNat := by
  rw [← List.mem_append, kept.split.mem_iff, mem_row]

/-- There are as many free and held blocks as there are blocks. -/
theorem length_eq
    (kept : Kept objectSize initialCount state free) :
    free.length + state.held.length = initialCount.toNat := by
  have lengths := kept.split.length_eq
  simpa [State.heldBlocks, row] using lengths

/-- A free or held block is not `NULL` and lies in the memory of the pool. -/
theorem within
    (kept : Kept objectSize initialCount state free)
    {block : Nat}
    (member : block ∈ free ++ state.heldBlocks) :
    state.pool.memory ≤ block ∧
      block + roundedSize objectSize.toNat ≤
        state.pool.memory + state.pool.memorySize.toNat := by
  rw [kept.layout.memory]
  exact row_within (kept.split.mem_iff.mp member)

/-- A free or held block is an address other than `NULL`. -/
theorem address
    (kept : Kept objectSize initialCount state free)
    {block : Nat}
    (member : block ∈ free ++ state.heldBlocks) :
    block ≠ 0 ∧ block < 2 ^ 64 := by
  have inside := kept.within member
  have nonNull := kept.layout.nonNull
  have room := kept.layout.room
  have wide := le_roundedSize objectSize.toNat
  rw [kept.layout.memory] at inside
  omega

/-- Two free or held blocks have no byte in common. -/
theorem apart
    (kept : Kept objectSize initialCount state free)
    {block other : Nat}
    (member : block ∈ free ++ state.heldBlocks)
    (otherMember : other ∈ free ++ state.heldBlocks)
    (different : block ≠ other) :
    Apart block (roundedSize objectSize.toNat)
      other (roundedSize objectSize.toNat) :=
  row_apart (kept.split.mem_iff.mp member)
    (kept.split.mem_iff.mp otherMember) different

/-- A block that is held is not free. -/
theorem not_free
    (kept : Kept objectSize initialCount state free)
    {block : Nat}
    (holds : block ∈ state.heldBlocks) :
    block ∉ free := by
  intro isFree
  exact (List.disjoint_of_nodup_append kept.nodup) isFree holds

/-- `NULL` is nobody's block. -/
theorem null_not_held
    (kept : Kept objectSize initialCount state free)
    {thread : Thread} :
    (thread, 0) ∉ state.held := by
  intro holds
  have member : 0 ∈ free ++ state.heldBlocks :=
    List.mem_append_right _ (List.mem_map_of_mem holds)
  exact (kept.address member).1 rfl

/-- With no free block `memory_pool_alloc` returns `NULL` and changes nothing. -/
theorem alloc_full
    (kept : Kept objectSize initialCount state []) :
    memoryPoolAlloc state.bytes (some state.pool) =
        (0, some state.pool) := by
  have null : state.pool.freeList = 0 :=
    (freeList_eq_zero_iff kept.chain).mpr rfl
  simp [memoryPoolAlloc, null]

/-- Otherwise it returns the first free block and unlinks it. -/
theorem alloc_first
    {block : Nat}
    {rest : List Nat}
    (kept : Kept objectSize initialCount state (block :: rest)) :
    block ≠ 0 ∧
      memoryPoolAlloc state.bytes (some state.pool) =
        (block, some { state.pool with
          freeList := nodeNext state.bytes block
          allocatedCount := state.pool.allocatedCount + 1 }) ∧
      Chain (link state.bytes)
        (pointer (nodeNext state.bytes block)) rest := by
  have nonNull : state.pool.freeList ≠ 0 := by
    intro null
    exact List.cons_ne_nil _ _ ((freeList_eq_zero_iff kept.chain).mp null)
  obtain ⟨others, shape, later⟩ := freeList_cons kept.chain nonNull
  obtain ⟨first, same⟩ := List.cons.inj shape
  subst same
  rw [← first] at nonNull later
  refine ⟨nonNull, ?_, later⟩
  rw [memoryPoolAlloc, ← first, if_neg nonNull]

/-- `memory_pool_alloc` moves the first free block to the held ones. -/
theorem alloc
    (kept : Kept objectSize initialCount state free)
    {thread : Thread}
    {block : Nat}
    {pool : MemoryPool}
    (returns :
      memoryPoolAlloc state.bytes (some state.pool) =
        (block, some pool)) :
    ∃ rest,
      Kept objectSize initialCount { state with
        pool := pool
        held := state.heldAfter thread block } rest := by
  cases free with
  | nil =>
      rw [kept.alloc_full, Prod.mk.injEq, Option.some.injEq] at returns
      obtain ⟨null, same⟩ := returns
      subst null same
      exact ⟨[], kept⟩
  | cons first rest =>
      obtain ⟨nonNull, result, later⟩ := kept.alloc_first
      rw [result, Prod.mk.injEq, Option.some.injEq] at returns
      obtain ⟨same, poolIs⟩ := returns
      subst same poolIs
      have lengths := kept.length_eq
      have bound : initialCount.toNat < 2 ^ 64 := initialCount.toNat_lt
      simp only [List.length_cons] at lengths
      have after :
          state.heldAfter thread first = (thread, first) :: state.held :=
        if_neg nonNull
      refine ⟨rest, ?_, later, ?_, ?_⟩
      · exact ⟨kept.layout.object, kept.layout.count,
          kept.layout.memory, kept.layout.nonNull, kept.layout.room⟩
      · rw [State.heldBlocks, after]
        exact List.perm_middle.trans kept.split
      · rw [after, List.length_cons, UInt64.toNat_add, kept.counted]
        simp only [UInt64.reduceToNat]
        omega

/-- What a client may write to is in no free block. -/
theorem write
    (kept : Kept objectSize initialCount state free)
    {thread : Thread}
    {bytes : Bytes}
    (own :
      ∀ addr,
        bytes addr ≠ state.bytes addr →
        state.MayWrite thread addr) :
    Kept objectSize initialCount { state with bytes := bytes } free := by
  refine ⟨kept.layout, ?_, kept.split, kept.counted⟩
  refine chain_congr kept.chain ?_
  intro block isFree addr above below
  by_contra changed
  have wide := le_roundedSize objectSize.toNat
  have member : block ∈ free ++ state.heldBlocks :=
    List.mem_append_left _ isFree
  have inside := kept.within member
  rcases own addr changed with before | behind | ⟨other, holds, low, high⟩
  · omega
  · omega
  · have heldOther : other ∈ state.heldBlocks := List.mem_map_of_mem holds
    have different : block ≠ other := by
      intro same
      subst same
      exact kept.not_free heldOther isFree
    have separate :=
      kept.apart member (List.mem_append_right _ heldOther) different
    rw [kept.layout.object] at high
    unfold Apart at separate
    omega

end Facts

section Preserved

variable
    {Thread : Type}
    [DecidableEq Thread]
    {objectSize initialCount : UInt64}
    {state : State Thread}
    {free : List Nat}

/-- `memory_pool_free` moves a held block to the front of the free ones. -/
theorem free_held
    (kept : Kept objectSize initialCount state free)
    {thread : Thread}
    {block : Nat}
    {pool : MemoryPool}
    {bytes : Bytes}
    (holds : (thread, block) ∈ state.held)
    (returns :
      memoryPoolFree state.bytes block (some state.pool) =
        (some pool, bytes)) :
    Kept objectSize initialCount
      { pool := pool
        bytes := bytes
        held := state.held.erase (thread, block) }
      (block :: free) := by
  have heldBlock : block ∈ state.heldBlocks := List.mem_map_of_mem holds
  have member : block ∈ free ++ state.heldBlocks :=
    List.mem_append_right _ heldBlock
  have nonNull := (kept.address member).1
  rw [memoryPoolFree, if_neg nonNull, Prod.mk.injEq,
    Option.some.injEq] at returns
  obtain ⟨poolIs, bytesIs⟩ := returns
  subst poolIs bytesIs
  have erased := List.perm_cons_erase holds
  refine ⟨?_, ?_, ?_, ?_⟩
  · exact ⟨kept.layout.object, kept.layout.count,
      kept.layout.memory, kept.layout.nonNull, kept.layout.room⟩
  · refine chain_push kept.chain ?_ nonNull ?_
    · refine freeList_lt kept.chain ?_
      intro other isFree
      exact (kept.address (List.mem_append_left _ isFree)).2
    · intro other isFree
      have different : block ≠ other := by
        intro same
        subst same
        exact kept.not_free heldBlock isFree
      have wide := le_roundedSize objectSize.toNat
      have separate :=
        kept.apart member (List.mem_append_left _ isFree) different
      unfold Apart at separate ⊢
      omega
  · have blocksErased := erased.map Prod.snd
    refine List.Perm.trans ?_ kept.split
    refine List.perm_middle.symm.trans ?_
    exact blocksErased.symm.append_left free
  · have lengths := erased.length_eq
    have bound : state.pool.allocatedCount.toNat < 2 ^ 64 :=
      state.pool.allocatedCount.toNat_lt
    have counted := kept.counted
    simp only [List.length_cons] at lengths
    rw [UInt64.toNat_sub]
    simp only [UInt64.reduceToNat]
    omega

/-- One step keeps the free list and the held blocks apart and complete. -/
theorem step
    (kept : Kept objectSize initialCount state free)
    {thread : Thread}
    {later : State Thread}
    (step : Step state thread later) :
    ∃ rest, Kept objectSize initialCount later rest := by
  cases step with
  | alloc returns =>
      exact kept.alloc returns
  | @free block pool bytes holds returns =>
      by_cases null : block = 0
      · subst null
        rw [memoryPoolFree, if_pos rfl, Prod.mk.injEq,
          Option.some.injEq] at returns
        obtain ⟨poolIs, bytesIs⟩ := returns
        subst poolIs bytesIs
        rw [List.erase_of_not_mem kept.null_not_held]
        exact ⟨free, kept⟩
      · exact ⟨block :: free,
          kept.free_held (holds.resolve_left null) returns⟩
  | write own =>
      exact ⟨free, kept.write own⟩

end Preserved

end Kept

/-- In every reachable state the free list and the held blocks are all blocks. -/
theorem reachable_kept
    {Thread : Type}
    [DecidableEq Thread]
    {objectSize initialCount : UInt64}
    (fits :
      roundedSize objectSize.toNat * initialCount.toNat < 2 ^ 64)
    {state : State Thread}
    (reachable :
      (memorySystem Thread objectSize initialCount).Reachable state) :
    ∃ free, Kept objectSize initialCount state free := by
  refine reachable.invariant
    (fun state => ∃ free, Kept objectSize initialCount state free)
    ?_ ?_
  · intro first initial
    obtain ⟨nobody, resources, bytes, valid, creates⟩ := initial
    exact memoryPoolCreate_kept fits valid nobody creates
  · intro before after _ holds next
    obtain ⟨free, kept⟩ := holds
    obtain ⟨thread, step⟩ := next
    exact kept.step step

/-- The blocks of a pool are in order; `free` are the blocks on the free list. -/
structure Sound
    {Thread : Type}
    (objectSize initialCount : UInt64)
    (state : State Thread)
    (free : List Nat) : Prop where
  object_size :
    state.pool.objectSize.toNat = roundedSize objectSize.toNat
  chain : Chain (link state.bytes) (pointer state.pool.freeList) free
  free_nodup : free.Nodup
  held_nodup : state.heldBlocks.Nodup
  disjoint : free.Disjoint state.heldBlocks
  blocks :
    ∀ block,
      (block ∈ free ∨ block ∈ state.heldBlocks) ↔
        ∃ index,
          index < initialCount.toNat ∧
            block =
              state.pool.memory + index * roundedSize objectSize.toNat
  allocated :
    (memoryPoolAllocated (some state.pool)).toNat = state.held.length
  available :
    (memoryPoolAvailable (some state.pool)).toNat = free.length
  alloc_null :
    (memoryPoolAlloc state.bytes (some state.pool)).1 = 0 ↔
      ∀ index,
        index < initialCount.toNat →
        state.pool.memory + index * roundedSize objectSize.toNat ∈
          state.heldBlocks
  alloc_fresh :
    ∀ block pool,
      memoryPoolAlloc state.bytes (some state.pool) = (block, pool) →
      block ≠ 0 →
      block ∈ free ∧
        block ∉ state.heldBlocks ∧
        ∀ other ∈ state.heldBlocks,
          Apart block (roundedSize objectSize.toNat)
            other (roundedSize objectSize.toNat)

/-- What every run keeps puts the blocks in order. -/
theorem Kept.sound
    {Thread : Type}
    {objectSize initialCount : UInt64}
    {state : State Thread}
    {free : List Nat}
    (kept : Kept objectSize initialCount state free) :
    Sound objectSize initialCount state free where
  object_size := kept.layout.object
  chain := kept.chain
  free_nodup := kept.chain.nodup
  held_nodup := kept.nodup.of_append_right
  disjoint := List.disjoint_of_nodup_append kept.nodup
  blocks := fun _ => kept.mem_iff
  allocated := kept.counted
  available := by
    have lengths := kept.length_eq
    have counted := kept.counted
    have bound := state.pool.totalCount.toNat_lt
    simp only [memoryPoolAvailable, UInt64.toNat_sub, kept.layout.count]
    rw [kept.layout.count] at bound
    omega
  alloc_null := by
    constructor
    · intro null index inside
      cases free with
      | nil =>
          have there := kept.mem_iff.mpr ⟨index, inside, rfl⟩
          exact there.resolve_left List.not_mem_nil
      | cons first rest =>
          obtain ⟨nonNull, result, _⟩ := kept.alloc_first
          rw [result] at null
          exact absurd null nonNull
    · intro allHeld
      cases free with
      | nil =>
          rw [kept.alloc_full]
      | cons first rest =>
          obtain ⟨index, inside, same⟩ :=
            kept.mem_iff.mp (Or.inl List.mem_cons_self)
          have isHeld := allHeld index inside
          rw [← same] at isHeld
          exact absurd List.mem_cons_self (kept.not_free isHeld)
  alloc_fresh := by
    intro block pool returns nonNull
    cases free with
    | nil =>
        rw [kept.alloc_full, Prod.mk.injEq] at returns
        exact absurd returns.1.symm nonNull
    | cons first rest =>
        obtain ⟨_, result, _⟩ := kept.alloc_first
        rw [result, Prod.mk.injEq] at returns
        obtain ⟨same, _⟩ := returns
        subst same
        have notHeld : first ∉ state.heldBlocks :=
          fun isHeld => kept.not_free isHeld List.mem_cons_self
        refine ⟨List.mem_cons_self, notHeld, ?_⟩
        intro other isHeld
        refine kept.apart
          (List.mem_append_left _ List.mem_cons_self)
          (List.mem_append_right _ isHeld) ?_
        intro same
        subst same
        exact notHeld isHeld

/-- In every reachable state the blocks of the pool are in order. -/
theorem reachable_sound
    {Thread : Type}
    [DecidableEq Thread]
    {objectSize initialCount : UInt64}
    (fits :
      roundedSize objectSize.toNat * initialCount.toNat < 2 ^ 64)
    {state : State Thread}
    (reachable :
      (memorySystem Thread objectSize initialCount).Reachable state) :
    ∃ free, Sound objectSize initialCount state free := by
  obtain ⟨free, kept⟩ := reachable_kept fits reachable
  exact ⟨free, kept.sound⟩

/-- The blocks are in order after a holder wrote over a link. -/
theorem reachable_sound_used :
    (memorySystem Bool 5 2).Reachable
        { smallHeld with
          bytes := Function.update smallHeld.bytes 4104 7 } ∧
      ∃ free,
        Sound 5 2
          { smallHeld with
            bytes := Function.update smallHeld.bytes 4104 7 }
          free := by
  have own :
      ∀ addr,
        Function.update smallHeld.bytes 4104 7 addr ≠
          smallHeld.bytes addr →
        smallHeld.MayWrite true addr := by
    intro addr changed
    have here : addr = 4104 := by
      by_contra elsewhere
      exact changed (Function.update_of_ne elsewhere _ _)
    subst here
    exact Or.inr (Or.inr ⟨4104, by decide, by decide, by decide⟩)
  have used := smallHeld_reachable.step ⟨true, .write own⟩
  exact ⟨used, reachable_sound (by decide) used⟩

end SThread.Memory
