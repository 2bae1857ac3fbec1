import Mathlib.Data.Nat.Bitwise
import Mathlib.Logic.Function.Basic
import Mathlib.Tactic.Ring

namespace SThread.Library

/-!
# Numbers in byte-addressed memory

A number is stored in a row of bytes, least significant byte first.  What is
loaded is what was stored, and a store elsewhere is not noticed.
-/

/-- The contents of a byte-addressed memory. -/
abbrev Bytes :=
  Nat → UInt8

/-- The number in the `width` bytes from `addr` on. -/
def load
    (bytes : Bytes)
    (addr : Nat) : Nat → Nat
  | 0 => 0
  | width + 1 =>
      (bytes addr).toNat + 256 * load bytes (addr + 1) width

/-- Put a number into the `width` bytes from `addr` on. -/
def store
    (bytes : Bytes)
    (addr value : Nat) : Nat → Bytes
  | 0 => bytes
  | width + 1 =>
      Function.update
        (store bytes (addr + 1) (value / 256) width)
        addr (UInt8.ofNat value)

/-- Two rows of bytes have no byte in common. -/
def Apart
    (first firstWidth second secondWidth : Nat) : Prop :=
  first + firstWidth ≤ second ∨ second + secondWidth ≤ first

/-- A load sees the bytes of its row only. -/
theorem load_congr
    {before after : Bytes}
    {addr width : Nat}
    (same :
      ∀ other,
        addr ≤ other →
        other < addr + width →
        after other = before other) :
    load after addr width = load before addr width := by
  induction width generalizing addr with
  | zero =>
      rfl
  | succ width inductionHypothesis =>
      have rest :
          load after (addr + 1) width = load before (addr + 1) width :=
        inductionHypothesis
          (fun other above below => same other (by omega) (by omega))
      rw [load, load, rest, same addr (by omega) (by omega)]

/-- A store changes the bytes of its row only. -/
theorem store_outside
    {bytes : Bytes}
    {addr value width other : Nat}
    (outside : other < addr ∨ addr + width ≤ other) :
    store bytes addr value width other = bytes other := by
  induction width generalizing addr value with
  | zero =>
      rfl
  | succ width inductionHypothesis =>
      have elsewhere : other ≠ addr := by omega
      rw [store, Function.update_of_ne elsewhere]
      exact inductionHypothesis (by omega)

/-- What was stored is loaded again, as far as it fits. -/
theorem load_store
    (bytes : Bytes)
    (addr value width : Nat) :
    load (store bytes addr value width) addr width =
      value % 256 ^ width := by
  induction width generalizing addr value with
  | zero =>
      simp [load, Nat.mod_one]
  | succ width inductionHypothesis =>
      have rest :
          load (store bytes addr value (width + 1)) (addr + 1) width =
            value / 256 % 256 ^ width := by
        rw [← inductionHypothesis (addr + 1) (value / 256)]
        refine load_congr ?_
        intro other above _
        rw [store, Function.update_of_ne (by omega)]
      have first :
          (store bytes addr value (width + 1) addr).toNat =
            value % 256 := by
        rw [store, Function.update_self, UInt8.toNat_ofNat']
      rw [load, rest, first, Nat.pow_succ', Nat.mod_mul]

/-- A store apart from a row does not change what is loaded from it. -/
theorem load_store_apart
    {bytes : Bytes}
    {addr value width other otherWidth : Nat}
    (apart : Apart addr width other otherWidth) :
    load (store bytes addr value width) other otherWidth =
      load bytes other otherWidth := by
  refine load_congr ?_
  intro cell above below
  refine store_outside ?_
  unfold Apart at apart
  omega

/-- Clearing the lowest bits of a number rounds it down. -/
theorem and_complement_low
    (value : UInt64)
    (bits : Nat)
    (few : bits < 64) :
    (value &&& ~~~(UInt64.ofNat (2 ^ bits - 1))).toNat =
      value.toNat / 2 ^ bits * 2 ^ bits := by
  have positive : 0 < 2 ^ bits := Nat.two_pow_pos bits
  have below : 2 ^ bits < 2 ^ 64 :=
    Nat.pow_lt_pow_right (by omega) few
  have low : (UInt64.ofNat (2 ^ bits - 1)).toNat = 2 ^ bits - 1 :=
    UInt64.toNat_ofNat_of_lt' (by simp only [UInt64.size]; omega)
  have mask :
      (~~~(UInt64.ofNat (2 ^ bits - 1))).toNat =
        2 ^ 64 - (2 ^ bits - 1 + 1) := by
    rw [UInt64.toNat_not, low, UInt64.size]
    omega
  rw [UInt64.toNat_and, mask]
  refine Nat.eq_of_testBit_eq ?_
  intro position
  rw [Nat.testBit_and,
    Nat.testBit_two_pow_sub_succ (by omega),
    Nat.testBit_two_pow_sub_one,
    Nat.testBit_mul_two_pow]
  by_cases lowest : position < bits
  · simp [lowest]
  · have again : position - bits + bits = position := by omega
    rw [Nat.testBit_div_two_pow, again]
    by_cases inside : position < 64
    · simp [lowest, inside, Nat.not_lt.mp lowest]
    · have beyond : value.toNat.testBit position = false :=
        Nat.testBit_lt_two_pow
          (Nat.lt_of_lt_of_le value.toNat_lt
            (Nat.pow_le_pow_right (by omega) (Nat.not_lt.mp inside)))
      simp [beyond]

end SThread.Library
