import SThread.Memory.MemoryPool

namespace SThread.Memory

open SThread.Library

/-!
# The free list in the bytes of the pool

The links of the free list form a chain through memory.  A block is pushed in
front by one store into the block itself, and the initialising loop pushes
every block of the row once.
-/

/-- The cell a pointer leads to. -/
def pointer
    (ptr : Nat) : Option Nat :=
  if ptr = 0 then none else some ptr

/-- The links that are stored in the blocks. -/
def link
    (bytes : Bytes)
    (node : Nat) : Option (Option Nat) :=
  some (pointer (nodeNext bytes node))

/-- A pointer leads to a cell only if it is that cell's address. -/
theorem pointer_eq_some
    {ptr cell : Nat} :
    pointer ptr = some cell ↔ ptr ≠ 0 ∧ ptr = cell := by
  unfold pointer
  split <;> simp_all

/-- Only `NULL` leads nowhere. -/
theorem pointer_eq_none
    {ptr : Nat} :
    pointer ptr = none ↔ ptr = 0 := by
  simp [pointer]

/-- The link that was set is read again. -/
theorem nodeNext_setNodeNext
    {bytes : Bytes}
    {node next : Nat}
    (address : next < 2 ^ 64) :
    nodeNext (setNodeNext bytes node next) node = next := by
  unfold nodeNext setNodeNext
  rw [load_store]
  exact Nat.mod_eq_of_lt address

/-- A link is not changed by setting one in a block apart from it. -/
theorem nodeNext_setNodeNext_apart
    {bytes : Bytes}
    {node next other : Nat}
    (apart : Apart node 8 other 8) :
    nodeNext (setNodeNext bytes node next) other = nodeNext bytes other :=
  load_store_apart apart

/-- `free_list` is `NULL` exactly when the chain from it is empty. -/
theorem freeList_eq_zero_iff
    {bytes : Bytes}
    {freeList : Nat}
    {free : List Nat}
    (chain : Chain (link bytes) (pointer freeList) free) :
    freeList = 0 ↔ free = [] := by
  rw [← pointer_eq_none, chain.start_eq, List.head?_eq_none_iff]

/-- A `free_list` that is not `NULL` is the first block of the chain. -/
theorem freeList_cons
    {bytes : Bytes}
    {freeList : Nat}
    {free : List Nat}
    (chain : Chain (link bytes) (pointer freeList) free)
    (nonNull : freeList ≠ 0) :
    ∃ rest,
      free = freeList :: rest ∧
        Chain (link bytes) (pointer (nodeNext bytes freeList)) rest := by
  have start : pointer freeList = some freeList :=
    pointer_eq_some.mpr ⟨nonNull, rfl⟩
  rw [start] at chain
  obtain ⟨next, rest, shape, here, later⟩ := chain.uncons
  have sameNext : pointer (nodeNext bytes freeList) = next :=
    Option.some.inj here
  exact ⟨rest, shape, sameNext ▸ later⟩

/-- `free_list` is an address if the blocks on it are. -/
theorem freeList_lt
    {bytes : Bytes}
    {freeList : Nat}
    {free : List Nat}
    (chain : Chain (link bytes) (pointer freeList) free)
    (addresses : ∀ block ∈ free, block < 2 ^ 64) :
    freeList < 2 ^ 64 := by
  by_cases null : freeList = 0
  · simp [null]
  · obtain ⟨rest, shape, _⟩ := freeList_cons chain null
    exact addresses freeList (by simp [shape])

/-- Setting the link of a block apart from a free list pushes the block on it. -/
theorem chain_push
    {bytes : Bytes}
    {freeList node : Nat}
    {free : List Nat}
    (chain : Chain (link bytes) (pointer freeList) free)
    (address : freeList < 2 ^ 64)
    (nonNull : node ≠ 0)
    (apart : ∀ block ∈ free, Apart node 8 block 8) :
    Chain (link (setNodeNext bytes node freeList))
      (pointer node) (node :: free) := by
  refine ⟨pointer_eq_some.mpr ⟨nonNull, rfl⟩, pointer freeList, ?_, ?_⟩
  · rw [link, nodeNext_setNodeNext address]
  · refine chain.congr ?_
    intro block member
    rw [link, link, nodeNext_setNodeNext_apart (apart block member)]

/-- Bytes that do not change in the blocks of a free list do not change it. -/
theorem chain_congr
    {before after : Bytes}
    {freeList : Nat}
    {free : List Nat}
    (chain : Chain (link before) (pointer freeList) free)
    (same :
      ∀ block ∈ free,
        ∀ addr,
          block ≤ addr →
          addr < block + 8 →
          after addr = before addr) :
    Chain (link after) (pointer freeList) free := by
  refine chain.congr ?_
  intro block member
  have unchanged : nodeNext after block = nodeNext before block :=
    load_congr (same block member)
  rw [link, link, unchanged]

/-- The blocks of a row. -/
def row
    (first objectSize count : Nat) : List Nat :=
  (List.range count).map (fun index => first + index * objectSize)

/-- A row is its first block and the row behind it. -/
theorem row_succ
    (first objectSize count : Nat) :
    row first objectSize (count + 1) =
      first :: row (first + objectSize) objectSize count := by
  simp only [row, List.range_succ_eq_map, List.map_cons, List.map_map]
  congr 1
  · omega
  · refine List.map_congr_left ?_
    intro index _
    simp only [Function.comp_apply, Nat.succ_mul]
    omega

/-- What is in a row. -/
theorem mem_row
    {first objectSize count : Nat}
    {block : Nat} :
    block ∈ row first objectSize count ↔
      ∃ index, index < count ∧ block = first + index * objectSize := by
  simp only [row, List.mem_map, List.mem_range]
  constructor
  · intro ⟨index, inside, same⟩
    exact ⟨index, inside, same.symm⟩
  · intro ⟨index, inside, same⟩
    exact ⟨index, inside, same.symm⟩

/-- A row of blocks that have a size has no block twice. -/
theorem row_nodup
    {first objectSize count : Nat}
    (positive : 0 < objectSize) :
    (row first objectSize count).Nodup := by
  refine List.Nodup.map ?_ List.nodup_range
  intro index other same
  exact Nat.eq_of_mul_eq_mul_right positive (Nat.add_left_cancel same)

/-- Two blocks of a row are the same one or have no byte in common. -/
theorem row_apart
    {first objectSize count : Nat}
    {block other : Nat}
    (member : block ∈ row first objectSize count)
    (otherMember : other ∈ row first objectSize count)
    (different : block ≠ other) :
    Apart block objectSize other objectSize := by
  obtain ⟨index, _, rfl⟩ := mem_row.mp member
  obtain ⟨position, _, rfl⟩ := mem_row.mp otherMember
  unfold Apart
  rcases Nat.lt_trichotomy index position with before | same | after
  · have gap : (index + 1) * objectSize ≤ position * objectSize :=
      Nat.mul_le_mul_right objectSize before
    rw [Nat.succ_mul] at gap
    omega
  · rw [same] at different
    exact absurd rfl different
  · have gap : (position + 1) * objectSize ≤ index * objectSize :=
      Nat.mul_le_mul_right objectSize after
    rw [Nat.succ_mul] at gap
    omega

/-- A block of a row lies between the row's ends. -/
theorem row_within
    {first objectSize count : Nat}
    {block : Nat}
    (member : block ∈ row first objectSize count) :
    first ≤ block ∧ block + objectSize ≤ first + count * objectSize := by
  obtain ⟨index, inside, rfl⟩ := mem_row.mp member
  have room : (index + 1) * objectSize ≤ count * objectSize :=
    Nat.mul_le_mul_right objectSize inside
  rw [Nat.succ_mul] at room
  omega

/-- The initialising loop links every block of the row. -/
theorem threadFreeList_chain
    {objectSize remaining : Nat}
    {ptr freeList : Nat}
    {bytes : Bytes}
    {free : List Nat}
    (wide : 8 ≤ objectSize)
    (nonNull : ptr ≠ 0)
    (room : ptr + remaining * objectSize ≤ 2 ^ 64)
    (chain : Chain (link bytes) (pointer freeList) free)
    (below : ∀ block ∈ free, block + 8 ≤ ptr) :
    ∃ linked,
      Chain
          (link (threadFreeList objectSize remaining ptr freeList bytes).2)
          (pointer
            (threadFreeList objectSize remaining ptr freeList bytes).1)
          linked ∧
        linked.Perm (row ptr objectSize remaining ++ free) := by
  induction remaining generalizing ptr freeList bytes free with
  | zero =>
      exact ⟨free, chain, by simp [row]⟩
  | succ remaining inductionHypothesis =>
      rw [Nat.succ_mul] at room
      have address : freeList < 2 ^ 64 :=
        freeList_lt chain
          (fun block member => by have := below block member; omega)
      have pushed :=
        chain_push chain address nonNull
          (fun block member => Or.inr (below block member))
      have belowNext :
          ∀ block ∈ ptr :: free, block + 8 ≤ ptr + objectSize := by
        intro block member
        rcases List.mem_cons.mp member with same | earlier
        · omega
        · have := below block earlier
          omega
      have nextNonNull : ptr + objectSize ≠ 0 := by omega
      have nextRoom :
          ptr + objectSize + remaining * objectSize ≤ 2 ^ 64 := by
        omega
      obtain ⟨linked, linkedChain, blocks⟩ :=
        inductionHypothesis nextNonNull nextRoom pushed belowNext
      refine ⟨linked, linkedChain, blocks.trans ?_⟩
      rw [row_succ]
      exact List.perm_middle

end SThread.Memory
