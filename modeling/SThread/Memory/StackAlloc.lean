import SThread.Platform.GuardedMemory

namespace SThread.Memory

open SThread.Library
open SThread.Platform

/-!
# Stacks with a guard page

`stack_alloc_create` rounds the requested size, asks the platform layer for
guarded memory and writes down where the stack is.  `stack_alloc_destroy` finds
the start of the memory again and has all of it unmapped.
-/

/-- `STACK_DEFAULT_SIZE`. -/
def stackDefaultSize : UInt64 :=
  65536

/-- `STACK_MIN_SIZE`. -/
def stackMinSize : UInt64 :=
  4096

/-- `STACK_MAX_SIZE`. -/
def stackMaxSize : UInt64 :=
  8388608

/-- `stack_alloc_t`. -/
structure StackAlloc where
  base : UInt64
  stackTop : UInt64
  stackSize : UInt64
  totalSize : UInt64
  hasGuard : Bool
  deriving DecidableEq, Repr

/-- What `memset` leaves. -/
def StackAlloc.zero : StackAlloc where
  base := 0
  stackTop := 0
  stackSize := 0
  totalSize := 0
  hasGuard := false

/-- The size that `stack_alloc_create` rounds. -/
def clampStackSize (size : UInt64) : UInt64 :=
  if size = 0 then
    stackDefaultSize
  else if size < stackMinSize then
    stackMinSize
  else if size > stackMaxSize then
    stackMaxSize
  else
    size

/-- A size rounded up to whole pages. -/
def roundToPages (pageSize size : UInt64) : UInt64 :=
  (size + pageSize - 1) &&& ~~~(pageSize - 1)

section

variable
    (os : Os)

/-- `stack_alloc_create`; no `alloc` is a null pointer. -/
def stackAllocCreate
    (memory : Memory) :
    Option StackAlloc → UInt64 → Int × Option StackAlloc × Memory
  | none, _ => (-1, none, memory)
  | some _, size =>
      let pageSize := platformGetPageSize os
      let size := roundToPages pageSize (clampStackSize size)
      match platformAllocWithGuard os memory size with
      | (none, memory) => (-1, some .zero, memory)
      | (some (stack, totalSize), memory) =>
          if stack = 0 then
            (-1, some .zero, memory)
          else
            (0,
              some {
                base := stack - pageSize
                stackTop := stack + size
                stackSize := size
                totalSize := totalSize
                hasGuard := true },
              memory)

/-- `stack_alloc_destroy`. -/
def stackAllocDestroy
    (memory : Memory) :
    Option StackAlloc → Option StackAlloc × Memory
  | none => (none, memory)
  | some alloc =>
      if alloc.base = 0 then
        (some alloc, memory)
      else
        (some .zero,
          platformFreeWithGuard os memory
            (alloc.base + platformGetPageSize os) alloc.totalSize)

end

/-- The requested size after defaulting and clamping. -/
def clampedSize (requested : Nat) : Nat :=
  if requested = 0 then
    stackDefaultSize.toNat
  else
    min (max requested stackMinSize.toNat) stackMaxSize.toNat

/-- The code defaults and clamps. -/
theorem clampStackSize_toNat (size : UInt64) :
    (clampStackSize size).toNat = clampedSize size.toNat := by
  unfold clampStackSize clampedSize
  by_cases default : size = 0
  · simp [default]
  · have requested : size.toNat ≠ 0 := by
      intro zero
      exact default (UInt64.toNat_inj.mp zero)
    rw [if_neg default, if_neg requested]
    by_cases small : size < stackMinSize
    · have less := UInt64.lt_iff_toNat_lt.mp small
      have order : stackMinSize.toNat ≤ stackMaxSize.toNat := by decide
      rw [if_pos small]
      omega
    · have atLeast := Nat.not_lt.mp
        (fun less => small (UInt64.lt_iff_toNat_lt.mpr less))
      rw [if_neg small]
      by_cases large : size > stackMaxSize
      · have more := UInt64.lt_iff_toNat_lt.mp large
        rw [if_pos large]
        omega
      · have atMost := Nat.not_lt.mp
          (fun less => large (UInt64.lt_iff_toNat_lt.mpr less))
        rw [if_neg large]
        omega

/-- A clamped size lies between the bounds. -/
theorem clampedSize_bounds (requested : Nat) :
    4096 ≤ clampedSize requested ∧ clampedSize requested ≤ 8388608 := by
  have bounds :
      stackDefaultSize.toNat = 65536 ∧ stackMinSize.toNat = 4096 ∧
        stackMaxSize.toNat = 8388608 :=
    ⟨rfl, rfl, rfl⟩
  unfold clampedSize
  split <;> omega

namespace StackAlloc

/-- Everything that has been mapped. -/
def mapping (alloc : StackAlloc) : Region :=
  regionAt alloc.base alloc.totalSize

/-- The guard page. -/
def guard
    (os : Os)
    (alloc : StackAlloc) : Region :=
  regionAt alloc.base (platformGetPageSize os)

/-- The usable stack. -/
def stack
    (os : Os)
    (alloc : StackAlloc) : Region where
  start := alloc.base.toNat + (platformGetPageSize os).toNat
  length := alloc.stackSize.toNat

end StackAlloc

/-- A stack of the requested size with its guard page, and nothing else mapped. -/
structure Laid
    (os : Os)
    (requested : UInt64)
    (before after : Memory)
    (alloc : StackAlloc) : Prop where
  hasGuard : alloc.hasGuard = true
  base : alloc.base ≠ 0
  stackSize :
    IsLeast
      { size : Nat |
        (platformGetPageSize os).toNat ∣ size ∧
          clampedSize requested.toNat ≤ size }
      alloc.stackSize.toNat
  totalSize :
    alloc.totalSize.toNat =
      alloc.stackSize.toNat + (platformGetPageSize os).toNat
  inside : alloc.mapping.stop ≤ 2 ^ 64
  tiles : Region.Tiles (alloc.guard os) (alloc.stack os) alloc.mapping
  top : alloc.stackTop = alloc.base + alloc.totalSize
  stackStop :
    alloc.stackTop.toNat = (alloc.stack os).stop % 2 ^ 64
  free : before.Free alloc.mapping
  guarded : ∀ addr ∈ alloc.guard os, after addr = some .none
  usable : ∀ addr ∈ alloc.stack os, after addr = some .readWrite
  elsewhere : ∀ addr, addr ∉ alloc.mapping → after addr = before addr

section

variable
    {os : Os}

/-- A page is not empty and not larger than `2 ^ 32` bytes. -/
theorem pageSize_bounds
    (documented : os.Documented) :
    0 < (platformGetPageSize os).toNat ∧
      (platformGetPageSize os).toNat ≤ 2 ^ 32 := by
  obtain ⟨bits, few, power⟩ := documented.pageSize
  rw [platformGetPageSize, power]
  exact ⟨Nat.two_pow_pos bits, Nat.pow_le_pow_right (by decide) few⟩

/-- The stack has the least size in whole pages. -/
theorem roundToPages_isLeast
    (documented : os.Documented)
    (requested : UInt64) :
    IsLeast
      { size : Nat |
        (platformGetPageSize os).toNat ∣ size ∧
          clampedSize requested.toNat ≤ size }
      (roundToPages (platformGetPageSize os)
        (clampStackSize requested)).toNat := by
  have page := pageSize_bounds documented
  have clamped := clampedSize_bounds requested.toNat
  have chosen := clampStackSize_toNat requested
  obtain ⟨bits, few, power⟩ := documented.pageSize
  have rounded :=
    roundUp_mask (clampStackSize requested) (platformGetPageSize os)
      (Nat.lt_of_le_of_lt few (by decide)) power (by omega)
  rw [roundToPages, rounded, chosen]
  exact roundUp_isLeast (clampedSize requested.toNat) page.1

/-- No stack is empty. -/
theorem positive_roundToPages
    (documented : os.Documented)
    (requested : UInt64) :
    0 < (roundToPages (platformGetPageSize os)
      (clampStackSize requested)).toNat := by
  have enough := (roundToPages_isLeast documented requested).1.2
  have clamped := (clampedSize_bounds requested.toNat).1
  exact Nat.lt_of_lt_of_le (by omega) enough

/-- The rounded size leaves room for the guard page in a `size_t`. -/
theorem roundToPages_bound
    (documented : os.Documented)
    (requested : UInt64) :
    (roundToPages (platformGetPageSize os)
        (clampStackSize requested)).toNat +
      (platformGetPageSize os).toNat < 2 ^ 64 := by
  have page := pageSize_bounds documented
  have clamped := clampedSize_bounds requested.toNat
  have pages :
      clampedSize requested.toNat ≤
        8388608 * (platformGetPageSize os).toNat := by
    calc
      clampedSize requested.toNat ≤ 8388608 * 1 := clamped.2
      _ ≤ 8388608 * (platformGetPageSize os).toNat :=
        Nat.mul_le_mul_left _ page.1
  have least :=
    (roundToPages_isLeast documented requested).2
      ⟨Nat.dvd_mul_left _ 8388608, pages⟩
  omega

end

section

variable
    {os : Os}
    {before after : Memory}
    {mem size requested : UInt64}

/-- What `stack_alloc_create` writes down about guarded memory at `mem`. -/
def StackAlloc.at
    (os : Os)
    (mem size : UInt64) : StackAlloc where
  base := mem + platformGetPageSize os - platformGetPageSize os
  stackTop := mem + platformGetPageSize os + size
  stackSize := size
  totalSize := size + platformGetPageSize os
  hasGuard := true

/-- It describes the guarded memory. -/
theorem laid_of_guarded
    (guarded : Guarded os before after mem size)
    (fits : size.toNat + (platformGetPageSize os).toNat < 2 ^ 64)
    (least :
      IsLeast
        { size : Nat |
          (platformGetPageSize os).toNat ∣ size ∧
            clampedSize requested.toNat ≤ size }
        size.toNat) :
    Laid os requested before after (.at os mem size) := by
  have base : (StackAlloc.at os mem size).base = mem := by
    simp [StackAlloc.at]
  have total :
      (size + platformGetPageSize os).toNat =
        size.toNat + (platformGetPageSize os).toNat := by
    rw [UInt64.toNat_add]
    omega
  have tiles :
      Region.Tiles ((StackAlloc.at os mem size).guard os)
        ((StackAlloc.at os mem size).stack os)
        (StackAlloc.at os mem size).mapping := by
    constructor
    · rfl
    · simp only [StackAlloc.guard, StackAlloc.stack, Region.stop, regionAt]
    · simp only [StackAlloc.mapping, StackAlloc.stack, Region.stop,
        regionAt, StackAlloc.at, total]
      omega
  have mapping :
      (StackAlloc.at os mem size).mapping =
        regionAt mem (size + platformGetPageSize os) := by
    rw [StackAlloc.mapping, base]
    rfl
  have guard :
      (StackAlloc.at os mem size).guard os =
        regionAt mem (platformGetPageSize os) := by
    rw [StackAlloc.guard, base]
  exact {
    hasGuard := rfl
    base := by
      rw [base]
      exact guarded.nonNull
    stackSize := least
    totalSize := total
    inside := by
      rw [mapping]
      exact guarded.inside
    tiles := tiles
    top := by
      rw [base]
      simp only [StackAlloc.at]
      rw [UInt64.add_assoc, UInt64.add_comm (platformGetPageSize os)]
    stackStop := by
      simp only [StackAlloc.stack, Region.stop, base]
      simp [StackAlloc.at]
    free := by
      rw [mapping]
      exact guarded.free
    guarded := by
      rw [guard]
      exact guarded.guard
    usable := by
      intro addr inStack
      refine guarded.usable addr ?_ ?_
      · rw [← mapping]
        exact tiles.mem_whole.mpr (Or.inr inStack)
      · rw [← guard]
        intro inGuard
        exact tiles.apart inGuard inStack
    elsewhere := by
      rw [mapping]
      exact guarded.elsewhere }

/-- The pointer to the stack is not null. -/
theorem stack_ne_zero_of_guarded
    (guarded : Guarded os before after mem size)
    (positive : 0 < size.toNat)
    (fits : size.toNat + (platformGetPageSize os).toNat < 2 ^ 64) :
    mem + platformGetPageSize os ≠ 0 := by
  have inside := guarded.inside
  simp only [Region.stop, regionAt, UInt64.toNat_add] at inside
  intro null
  have sum := congrArg UInt64.toNat null
  rw [UInt64.toNat_add, UInt64.toNat_zero] at sum
  have zero : mem.toNat = 0 := by omega
  exact guarded.nonNull (UInt64.toNat_inj.mp zero)

/-- `stack_alloc_create` fails without a trace or lays out a stack. -/
theorem stackAllocCreate_cases
    (documented : os.Documented)
    (memory : Memory)
    (alloc : StackAlloc)
    (requested : UInt64) :
    stackAllocCreate os memory (some alloc) requested =
        (-1, some .zero, memory) ∨
      ∃ made after,
        stackAllocCreate os memory (some alloc) requested =
            (0, some made, after) ∧
          Laid os requested memory after made := by
  have bound := roundToPages_bound documented requested
  have least := roundToPages_isLeast documented requested
  have positive := positive_roundToPages documented requested
  rcases platformAllocWithGuard_cases documented bound memory with
    fails | ⟨mem, after, succeeds, guarded⟩
  · refine Or.inl ?_
    simp only [stackAllocCreate, fails]
  · refine Or.inr ⟨.at os mem _, after, ?_, laid_of_guarded guarded bound least⟩
    have stack := stack_ne_zero_of_guarded guarded positive bound
    simp only [stackAllocCreate, succeeds, if_neg stack]
    rfl

/-- The creation succeeds when `mmap` and `mprotect` do. -/
theorem stackAllocCreate_code
    (documented : os.Documented)
    {memory : Memory}
    {alloc : StackAlloc}
    (maps :
      os.mmap memory
          (roundToPages (platformGetPageSize os) (clampStackSize requested) +
            platformGetPageSize os) =
        some mem)
    (protects :
      ∀ memory,
        os.mprotect memory mem (platformGetPageSize os) = true) :
    (stackAllocCreate os memory (some alloc) requested).1 = 0 := by
  have bound := roundToPages_bound documented requested
  rcases stackAllocCreate_cases documented memory alloc requested with
    fails | ⟨made, after, succeeds, _⟩
  · rcases platformAllocWithGuard_cases documented bound memory with
      refused | ⟨other, after, allocates, guarded⟩
    · simp [platformAllocWithGuard, maps, protects] at refused
    · have stack := stack_ne_zero_of_guarded guarded
        (positive_roundToPages documented requested) bound
      simp only [stackAllocCreate, allocates, if_neg stack]
  · rw [succeeds]

/-- The release unmaps what was mapped, wherever it happens. -/
theorem Laid.destroy
    {alloc : StackAlloc}
    (laid : Laid os requested before after alloc)
    (memory : Memory) :
    stackAllocDestroy os memory (some alloc) =
      (some .zero, memory.unmap alloc.mapping) := by
  have start :
      alloc.base + platformGetPageSize os - platformGetPageSize os =
        alloc.base := by
    simp
  have pointer : alloc.base + platformGetPageSize os ≠ 0 := by
    intro null
    have inside := laid.inside
    have total := laid.totalSize
    have size := laid.stackSize.1.2
    have clamped := (clampedSize_bounds requested.toNat).1
    have sum := congrArg UInt64.toNat null
    simp only [StackAlloc.mapping, Region.stop, regionAt] at inside
    rw [UInt64.toNat_add, UInt64.toNat_zero] at sum
    have zero : alloc.base.toNat = 0 := by omega
    exact laid.base (UInt64.toNat_inj.mp zero)
  simp only [stackAllocDestroy, if_neg laid.base, platformFreeWithGuard,
    if_neg pointer, start]
  rfl

/-- There is nothing to release in a zeroed `stack_alloc_t`. -/
theorem stackAllocDestroy_zero
    (os : Os)
    (memory : Memory) :
    stackAllocDestroy os memory (some .zero) = (some .zero, memory) :=
  rfl

end

/--
`stack_alloc_create` either fails and leaves a zeroed `stack_alloc_t` and the
memory as it was, or lays out a stack of the least size in whole pages behind
one guard page.  `stack_alloc_destroy` then unmaps what was mapped, once.
-/
theorem stackAlloc_layout
    {os : Os}
    (documented : os.Documented)
    (memory : Memory)
    (alloc : StackAlloc)
    (requested : UInt64) :
    stackAllocCreate os memory (some alloc) requested =
        (-1, some .zero, memory) ∨
      ∃ made after,
        stackAllocCreate os memory (some alloc) requested =
            (0, some made, after) ∧
          Laid os requested memory after made ∧
          (stackAllocDestroy os after (some made)).2 = memory ∧
          (∀ later : Memory,
            stackAllocDestroy os later (some made) =
              (some .zero, later.unmap made.mapping)) ∧
          ∀ later : Memory,
            stackAllocDestroy os later (some .zero) =
              (some .zero, later) := by
  rcases stackAllocCreate_cases documented memory alloc requested with
    fails | ⟨made, after, succeeds, laid⟩
  · exact Or.inl fails
  · refine Or.inr
      ⟨made, after, succeeds, laid, ?_, laid.destroy,
        stackAllocDestroy_zero os⟩
    rw [laid.destroy]
    exact AddressSpace.unmap_of_same_outside laid.free laid.elsewhere

/-- A system with pages of 4 KiB that maps everything at one place. -/
def fixedOs : Os where
  pageSize := 4096
  mmap memory length :=
    if length.toNat ≤ 2 ^ 32 ∧
        ∀ offset < length.toNat, memory (65536 + offset) = none then
      some 65536
    else
      none
  mprotect _ _ _ := true

/-- When it maps something, and where. -/
theorem fixedOs_mmap
    {memory : Memory}
    {length addr : UInt64} :
    fixedOs.mmap memory length = some addr ↔
      (length.toNat ≤ 2 ^ 32 ∧
          ∀ offset < length.toNat, memory (65536 + offset) = none) ∧
        65536 = addr := by
  simp [fixedOs]

/-- It does what is known about an operating system. -/
theorem fixedOs_documented : fixedOs.Documented where
  pageSize :=
    ⟨12, by decide, rfl⟩
  nonNull := by
    intro memory length addr maps
    obtain ⟨_, rfl⟩ := fixedOs_mmap.mp maps
    decide
  inside := by
    intro memory length addr maps
    obtain ⟨⟨short, _⟩, rfl⟩ := fixedOs_mmap.mp maps
    simp only [Region.stop, regionAt, UInt64.reduceToNat]
    omega
  free := by
    intro memory length addr maps
    obtain ⟨⟨_, free⟩, rfl⟩ := fixedOs_mmap.mp maps
    rintro cell ⟨above, below⟩
    simp only [Region.stop, regionAt, UInt64.reduceToNat] at above below
    have shifted := free (cell - 65536) (by omega)
    rwa [Nat.add_sub_cancel' above] at shifted

/-- Memory in which nothing is mapped. -/
def emptyMemory : Memory :=
  fun _ => none

/-- There is room for a stack of 5000 bytes. -/
theorem fixedOs_creates :
    (stackAllocCreate fixedOs emptyMemory (some .zero) 5000).1 = 0 := by
  refine stackAllocCreate_code fixedOs_documented
    (show fixedOs.mmap _ _ = some 65536 from ?_) (fun _ => rfl)
  have size :
      roundToPages (platformGetPageSize fixedOs) (clampStackSize 5000) +
          platformGetPageSize fixedOs =
        12288 := by
    decide
  rw [size]
  exact fixedOs_mmap.mpr ⟨⟨by decide, fun _ _ => rfl⟩, rfl⟩

/-- A stack of 5000 bytes gets two pages there. -/
theorem stackAlloc_layout_fixed :
    ∃ made after,
      stackAllocCreate fixedOs emptyMemory (some .zero) 5000 =
          (0, some made, after) ∧
        Laid fixedOs 5000 emptyMemory after made := by
  rcases stackAlloc_layout fixedOs_documented emptyMemory .zero 5000 with
    fails | ⟨made, after, succeeds, laid, _⟩
  · have code := fixedOs_creates
    rw [fails] at code
    exact absurd code (by decide)
  · exact ⟨made, after, succeeds, laid⟩

end SThread.Memory
