import Mathlib.Algebra.Order.Floor.Div
import Mathlib.Order.Bounds.Basic
import SThread.Library.Words

namespace SThread.Library

/-!
# Regions of an address space

A region is a row of bytes.  An address space says what may be done with each
of its bytes, and is changed one region at a time.  The last part rounds a size
up to a whole number of pages.

Nothing here mentions a particular program.
-/

/-- The bytes from `start` on, `length` of them. -/
structure Region where
  start : Nat
  length : Nat
  deriving DecidableEq, Repr

namespace Region

/-- The byte behind a region. -/
def stop (region : Region) : Nat :=
  region.start + region.length

instance : Membership Nat Region :=
  ⟨fun region addr => region.start ≤ addr ∧ addr < region.stop⟩

instance (addr : Nat) (region : Region) : Decidable (addr ∈ region) :=
  inferInstanceAs (Decidable (_ ∧ _))

/-- The bytes of a region. -/
theorem mem_iff
    {addr : Nat}
    {region : Region} :
    addr ∈ region ↔ region.start ≤ addr ∧ addr < region.stop :=
  Iff.rfl

/-- Two regions cover a third one without gap and overlap. -/
structure Tiles (first second whole : Region) : Prop where
  start : first.start = whole.start
  meet : first.stop = second.start
  stop : second.stop = whole.stop

variable
    {first second whole : Region}

/-- Every byte of the whole is in one of the tiles. -/
theorem Tiles.mem_whole
    (tiles : Tiles first second whole)
    {addr : Nat} :
    addr ∈ whole ↔ addr ∈ first ∨ addr ∈ second := by
  obtain ⟨start, meet, stop⟩ := tiles
  have firstSize : first.start ≤ first.stop := Nat.le_add_right _ _
  have secondSize : second.start ≤ second.stop := Nat.le_add_right _ _
  simp only [mem_iff, ← start, ← stop, ← meet] at *
  constructor
  · rintro ⟨above, below⟩
    by_cases left : addr < first.stop
    · exact Or.inl ⟨above, left⟩
    · exact Or.inr ⟨Nat.le_of_not_lt left, below⟩
  · rintro (⟨above, below⟩ | ⟨above, below⟩)
    · exact ⟨above, Nat.lt_of_lt_of_le below secondSize⟩
    · exact ⟨Nat.le_trans firstSize above, below⟩

/-- No byte is in both tiles. -/
theorem Tiles.apart
    (tiles : Tiles first second whole)
    {addr : Nat}
    (inFirst : addr ∈ first) :
    addr ∉ second := by
  intro inSecond
  have before := inFirst.2
  rw [tiles.meet] at before
  exact Nat.not_lt.mpr inSecond.1 before

end Region

/-- What may be done with each byte; `none` is a byte that is not mapped. -/
abbrev AddressSpace (Access : Type) :=
  Nat → Option Access

namespace AddressSpace

variable
    {Access : Type}

/-- Change what may be done with a region. -/
def protect
    (space : AddressSpace Access)
    (region : Region)
    (access : Option Access) : AddressSpace Access :=
  fun addr =>
    if addr ∈ region then access else space addr

/-- Remove a region. -/
def unmap
    (space : AddressSpace Access)
    (region : Region) : AddressSpace Access :=
  space.protect region none

/-- No byte of the region is mapped. -/
def Free
    (space : AddressSpace Access)
    (region : Region) : Prop :=
  ∀ addr ∈ region, space addr = none

variable
    {space : AddressSpace Access}
    {region : Region}
    {access : Option Access}
    {addr : Nat}

/-- The region has changed. -/
theorem protect_inside
    (inside : addr ∈ region) :
    space.protect region access addr = access :=
  if_pos inside

/-- Nothing else has. -/
theorem protect_outside
    (outside : addr ∉ region) :
    space.protect region access addr = space addr :=
  if_neg outside

/-- Removing what was put where nothing was undoes it. -/
theorem unmap_of_same_outside
    {changed : AddressSpace Access}
    (free : space.Free region)
    (same : ∀ addr, addr ∉ region → changed addr = space addr) :
    changed.unmap region = space := by
  funext addr
  by_cases inside : addr ∈ region
  · rw [unmap, protect_inside inside, free addr inside]
  · rw [unmap, protect_outside inside, same addr inside]

end AddressSpace

/-- A size rounded up is the least number of whole units that holds it. -/
theorem roundUp_isLeast
    (size : Nat)
    {unit : Nat}
    (positive : 0 < unit) :
    IsLeast
      { rounded : Nat | unit ∣ rounded ∧ size ≤ rounded }
      ((size + unit - 1) / unit * unit) := by
  rw [← Nat.ceilDiv_eq_add_pred_div, Nat.mul_comm]
  constructor
  · exact ⟨Nat.dvd_mul_right unit _, le_smul_ceilDiv positive⟩
  · rintro rounded ⟨⟨count, rfl⟩, enough⟩
    exact Nat.mul_le_mul_left unit
      ((ceilDiv_le_iff_le_mul positive).mpr enough)

/-- The idiom with a mask rounds up, as long as its sum does not wrap. -/
theorem roundUp_mask
    (size unit : UInt64)
    {bits : Nat}
    (few : bits < 64)
    (power : unit.toNat = 2 ^ bits)
    (fits : size.toNat + unit.toNat ≤ 2 ^ 64) :
    ((size + unit - 1) &&& ~~~(unit - 1)).toNat =
      (size.toNat + unit.toNat - 1) / unit.toNat * unit.toNat := by
  have positive : 0 < 2 ^ bits := Nat.two_pow_pos bits
  have small := unit.toNat_lt
  have low : unit - 1 = UInt64.ofNat (2 ^ bits - 1) := by
    rw [← UInt64.toNat_inj, UInt64.toNat_ofNat', UInt64.toNat_sub,
      UInt64.toNat_one, power]
    omega
  have sum :
      (size + unit - 1).toNat = size.toNat + unit.toNat - 1 := by
    rw [UInt64.toNat_sub, UInt64.toNat_add, UInt64.toNat_one]
    omega
  rw [low, and_complement_low _ bits few, sum, power]

end SThread.Library
