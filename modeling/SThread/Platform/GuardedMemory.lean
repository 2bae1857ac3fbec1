import SThread.Library.Region

namespace SThread.Platform

open SThread.Library

/-!
# Memory with a guard page

`platform_alloc_with_guard` and `platform_free_with_guard` over an address space
whose bytes are readable and writable, inaccessible or not mapped.  Where `mmap`
puts a region and whether `mmap` and `mprotect` succeed is a parameter.
-/

/-- The protections in use. -/
inductive Prot where
  | none
  | readWrite
  deriving DecidableEq, Repr

/-- The memory of the process. -/
abbrev Memory :=
  AddressSpace Prot

/-- A region by its address and its length in `size_t`. -/
def regionAt (addr length : UInt64) : Region where
  start := addr.toNat
  length := length.toNat

/-- The operating system: its page size, and the answers of its calls. -/
structure Os where
  pageSize : UInt64
  mmap : Memory → UInt64 → Option UInt64
  mprotect : Memory → UInt64 → UInt64 → Bool

/-- What is known about the operating system. -/
structure Os.Documented (os : Os) : Prop where
  pageSize : ∃ bits ≤ 32, os.pageSize.toNat = 2 ^ bits
  nonNull :
    ∀ memory length addr,
      os.mmap memory length = some addr → addr ≠ 0
  inside :
    ∀ memory length addr,
      os.mmap memory length = some addr →
      (regionAt addr length).stop ≤ 2 ^ 64
  free :
    ∀ memory length addr,
      os.mmap memory length = some addr →
      memory.Free (regionAt addr length)

section

variable
    (os : Os)

/-- `platform_get_page_size`. -/
def platformGetPageSize : UInt64 :=
  os.pageSize

/--
`platform_alloc_with_guard`: the pointer and the total size that is written, or
`none` for its null pointers.
-/
def platformAllocWithGuard
    (memory : Memory)
    (size : UInt64) : Option (UInt64 × UInt64) × Memory :=
  let pageSize := platformGetPageSize os
  let totalSize := size + pageSize
  match os.mmap memory totalSize with
  | none => (none, memory)
  | some mem =>
      let mapped :=
        memory.protect (regionAt mem totalSize) (some .readWrite)
      if os.mprotect mapped mem pageSize = true then
        (some (mem + pageSize, totalSize),
          mapped.protect (regionAt mem pageSize) (some .none))
      else
        (none, mapped.unmap (regionAt mem totalSize))

/-- `platform_free_with_guard`. -/
def platformFreeWithGuard
    (memory : Memory)
    (ptr totalSize : UInt64) : Memory :=
  if ptr = 0 then
    memory
  else
    memory.unmap (regionAt (ptr - platformGetPageSize os) totalSize)

end

/-- Memory with a guard page at `mem`, as an allocation has left it. -/
structure Guarded
    (os : Os)
    (before after : Memory)
    (mem size : UInt64) : Prop where
  nonNull : mem ≠ 0
  inside :
    (regionAt mem (size + platformGetPageSize os)).stop ≤ 2 ^ 64
  free :
    before.Free (regionAt mem (size + platformGetPageSize os))
  guard :
    ∀ addr ∈ regionAt mem (platformGetPageSize os),
      after addr = some .none
  usable :
    ∀ addr ∈ regionAt mem (size + platformGetPageSize os),
      addr ∉ regionAt mem (platformGetPageSize os) →
      after addr = some .readWrite
  elsewhere :
    ∀ addr,
      addr ∉ regionAt mem (size + platformGetPageSize os) →
      after addr = before addr

variable
    {os : Os}
    {before : Memory}
    {size : UInt64}

/-- The page at the head of a region is part of it. -/
theorem guard_inside
    (fits : size.toNat + os.pageSize.toNat < 2 ^ 64)
    {mem : UInt64}
    {addr : Nat}
    (inGuard : addr ∈ regionAt mem (platformGetPageSize os)) :
    addr ∈ regionAt mem (size + platformGetPageSize os) := by
  obtain ⟨above, below⟩ := inGuard
  refine ⟨above, Nat.lt_of_lt_of_le below ?_⟩
  simp only [Region.stop, regionAt, platformGetPageSize, UInt64.toNat_add]
  omega

/-- An allocation fails without a trace, or it leaves guarded memory. -/
theorem platformAllocWithGuard_cases
    (documented : os.Documented)
    (fits : size.toNat + os.pageSize.toNat < 2 ^ 64)
    (before : Memory) :
    platformAllocWithGuard os before size = (none, before) ∨
      ∃ mem after,
        platformAllocWithGuard os before size =
            (some (mem + platformGetPageSize os,
              size + platformGetPageSize os), after) ∧
          Guarded os before after mem size := by
  simp only [platformAllocWithGuard]
  cases maps :
      os.mmap before (size + platformGetPageSize os) with
  | none =>
      exact Or.inl rfl
  | some mem =>
      have free := documented.free before _ mem maps
      by_cases protects :
          os.mprotect
            (before.protect
              (regionAt mem (size + platformGetPageSize os))
              (some .readWrite))
            mem (platformGetPageSize os) = true
      · refine Or.inr
          ⟨mem,
            (before.protect
              (regionAt mem (size + platformGetPageSize os))
              (some .readWrite)).protect
                (regionAt mem (platformGetPageSize os)) (some .none),
            ?_, ?_⟩
        · simp only [protects, if_true]
        · exact {
            nonNull := documented.nonNull before _ mem maps
            inside := documented.inside before _ mem maps
            free := free
            guard := fun addr inGuard =>
              AddressSpace.protect_inside inGuard
            usable := fun addr inRegion outside => by
              rw [AddressSpace.protect_outside outside,
                AddressSpace.protect_inside inRegion]
            elsewhere := fun addr outside => by
              rw [AddressSpace.protect_outside
                  (fun inGuard => outside (guard_inside fits inGuard)),
                AddressSpace.protect_outside outside] }
      · refine Or.inl ?_
        simp only [protects]
        have same :
            ∀ addr,
              addr ∉ regionAt mem (size + platformGetPageSize os) →
              before.protect
                  (regionAt mem (size + platformGetPageSize os))
                  (some .readWrite) addr =
                before addr :=
          fun _ outside => AddressSpace.protect_outside outside
        have restored := AddressSpace.unmap_of_same_outside free same
        simp only [Bool.false_eq_true, if_false, restored]

end SThread.Platform
