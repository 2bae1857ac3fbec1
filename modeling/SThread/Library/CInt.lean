import Mathlib.Algebra.Group.Int.Defs
import Mathlib.Algebra.GroupWithZero.Nat
import Mathlib.Data.List.Induction

namespace SThread.Library

/-!
# Integer arithmetic with the types of C

A number has the range of its type.  An operation whose mathematical result is
out of range wraps around, and the number remembers that: it is not exact any
more, and neither is anything computed from it.

Nothing here mentions a particular program.
-/

/-- An integer type: signed or not, and its width. -/
structure IntType where
  signed : Bool
  bits : Nat
  deriving DecidableEq, Repr

namespace IntType

/-- `int`. -/
def int : IntType :=
  ⟨true, 32⟩

/-- `unsigned int`. -/
def uint : IntType :=
  ⟨false, 32⟩

/-- `long` where it has 64 bits. -/
def long : IntType :=
  ⟨true, 64⟩

variable
    (type : IntType)

/-- How many numbers the type has. -/
def size : Nat :=
  2 ^ type.bits

/-- The smallest number of the type. -/
def lowest : Int :=
  if type.signed then -(type.size / 2) else 0

/-- The first number beyond the type. -/
def beyond : Int :=
  if type.signed then (type.size + 1) / 2 else type.size

/-- The number is one of the type. -/
def Represents (value : Int) : Prop :=
  type.lowest ≤ value ∧ value < type.beyond

instance (value : Int) : Decidable (type.Represents value) :=
  inferInstanceAs (Decidable (_ ∧ _))

/-- The number of the type that is left of any number. -/
def wrap (value : Int) : Int :=
  if type.signed then
    value.bmod type.size
  else
    value % type.size

/-- No type is empty. -/
theorem size_pos : 0 < type.size :=
  Nat.two_pow_pos type.bits

/-- What is left is of the type. -/
theorem represents_wrap (value : Int) :
    type.Represents (type.wrap value) := by
  have positive := type.size_pos
  unfold Represents lowest beyond wrap
  cases type.signed with
  | false =>
      constructor
      · exact Int.emod_nonneg value (Int.ne_of_gt (Int.natCast_pos.mpr positive))
      · exact Int.emod_lt_of_pos value (Int.natCast_pos.mpr positive)
  | true =>
      constructor
      · exact Int.le_bmod positive
      · exact Int.bmod_lt positive

/-- A number of the type is left alone. -/
theorem wrap_of_represents
    {type : IntType}
    {value : Int}
    (represents : type.Represents value) :
    type.wrap value = value := by
  unfold Represents lowest beyond at represents
  unfold wrap
  cases signed : type.signed with
  | false =>
      simp only [signed, Bool.false_eq_true, if_false] at represents
      exact Int.emod_eq_of_lt represents.1 represents.2
  | true =>
      simp only [signed, if_true] at represents
      exact Int.bmod_eq_of_le represents.1 represents.2

/-- A natural number below one of the type is one of the type. -/
theorem Represents.of_le
    {type : IntType}
    {small large : Nat}
    (represents : type.Represents large)
    (le : small ≤ large) :
    type.Represents small := by
  have low : type.lowest ≤ 0 := by
    unfold lowest
    split <;> omega
  exact ⟨Int.le_trans low (Int.natCast_nonneg small),
    Int.lt_of_le_of_lt (Int.ofNat_le.mpr le) represents.2⟩

/-- The range of `int`. -/
theorem represents_int
    {value : Int} :
    int.Represents value ↔ -(2 ^ 31) ≤ value ∧ value < 2 ^ 31 :=
  Iff.rfl

/-- The range of `unsigned int`. -/
theorem represents_uint
    {value : Int} :
    uint.Represents value ↔ 0 ≤ value ∧ value < 2 ^ 32 :=
  Iff.rfl

/-- The range of `long`. -/
theorem represents_long
    {value : Int} :
    long.Represents value ↔ -(2 ^ 63) ≤ value ∧ value < 2 ^ 63 :=
  Iff.rfl

end IntType

/-- A number of a type; not exact when something has wrapped on the way to it. -/
structure CInt (type : IntType) where
  value : Int
  represented : type.Represents value
  exact : Bool

namespace CInt

variable
    {type other : IntType}

/-- The result of an operation, from its mathematical result. -/
def compute
    (type : IntType)
    (result : Int)
    (exact : Bool) : CInt type where
  value := type.wrap result
  represented := type.represents_wrap result
  exact := exact && decide (type.Represents result)

/-- A number that is written out or read from outside. -/
def ofInt
    (type : IntType)
    (value : Int) : CInt type :=
  compute type value true

instance (literal : Nat) : OfNat (CInt type) literal :=
  ⟨ofInt type literal⟩

instance : Add (CInt type) :=
  ⟨fun left right =>
    compute type (left.value + right.value)
      (left.exact && right.exact)⟩

instance : Sub (CInt type) :=
  ⟨fun left right =>
    compute type (left.value - right.value)
      (left.exact && right.exact)⟩

instance : Mul (CInt type) :=
  ⟨fun left right =>
    compute type (left.value * right.value)
      (left.exact && right.exact)⟩

/-- Division truncates; by zero it has no result. -/
instance : Div (CInt type) :=
  ⟨fun left right =>
    compute type (left.value.tdiv right.value)
      (left.exact && right.exact && decide (right.value ≠ 0))⟩

instance : Mod (CInt type) :=
  ⟨fun left right =>
    compute type (left.value.tmod right.value)
      (left.exact && right.exact && decide (right.value ≠ 0))⟩

/-- The conversion to another type. -/
def convert
    (other : IntType)
    (number : CInt type) : CInt other :=
  compute other number.value number.exact

/-- The number has been computed without wrapping, and this is its value. -/
structure Is
    (number : CInt type)
    (value : Int) : Prop where
  value : number.value = value
  exact : number.exact = true

variable
    {left right number : CInt type}
    {first second result : Int}

/-- A result in range is exact when its operands are. -/
theorem compute_is
    (represents : type.Represents result)
    {exact : Bool}
    (operands : exact = true) :
    (compute type result exact).Is result where
  value :=
    IntType.wrap_of_represents represents
  exact := by
    simp [compute, operands, represents]

/-- A number from outside in range. -/
theorem ofInt_is
    (represents : type.Represents result) :
    (ofInt type result).Is result :=
  compute_is represents rfl

/-- A literal in range. -/
theorem literal_is
    {literal : Nat}
    (represents : type.Represents literal) :
    (OfNat.ofNat literal : CInt type).Is literal :=
  ofInt_is represents

namespace Is

/-- An exact number is of its type. -/
theorem represents
    (is : number.Is first) :
    type.Represents first :=
  is.value ▸ number.represented

/-- Exact numbers of the same value are the same. -/
theorem unique
    (leftIs : left.Is first)
    (rightIs : right.Is first) :
    left = right := by
  rcases left with ⟨_, _, _⟩
  rcases right with ⟨_, _, _⟩
  obtain ⟨rfl, rfl⟩ := leftIs
  obtain ⟨rfl, rfl⟩ := rightIs
  rfl

/-- A sum in range. -/
theorem add
    (leftIs : left.Is first)
    (rightIs : right.Is second)
    (represents : type.Represents (first + second)) :
    (left + right).Is (first + second) := by
  obtain ⟨rfl, leftExact⟩ := leftIs
  obtain ⟨rfl, rightExact⟩ := rightIs
  exact compute_is represents (by simp [leftExact, rightExact])

/-- A difference in range. -/
theorem sub
    (leftIs : left.Is first)
    (rightIs : right.Is second)
    (represents : type.Represents (first - second)) :
    (left - right).Is (first - second) := by
  obtain ⟨rfl, leftExact⟩ := leftIs
  obtain ⟨rfl, rightExact⟩ := rightIs
  exact compute_is represents (by simp [leftExact, rightExact])

/-- A product in range. -/
theorem mul
    (leftIs : left.Is first)
    (rightIs : right.Is second)
    (represents : type.Represents (first * second)) :
    (left * right).Is (first * second) := by
  obtain ⟨rfl, leftExact⟩ := leftIs
  obtain ⟨rfl, rightExact⟩ := rightIs
  exact compute_is represents (by simp [leftExact, rightExact])

/-- A quotient of numbers that are not negative. -/
theorem div
    {dividend divisor : Nat}
    (leftIs : left.Is dividend)
    (rightIs : right.Is divisor)
    (nonzero : divisor ≠ 0) :
    (left / right).Is (dividend / divisor : Nat) := by
  have represents :=
    leftIs.represents.of_le (Nat.div_le_self dividend divisor)
  obtain ⟨leftValue, leftExact⟩ := leftIs
  obtain ⟨rightValue, rightExact⟩ := rightIs
  rw [Int.ofNat_tdiv, ← leftValue, ← rightValue] at represents ⊢
  exact compute_is represents
    (by simp [leftExact, rightExact, rightValue, nonzero])

/-- A remainder of numbers that are not negative. -/
theorem mod
    {dividend divisor : Nat}
    (leftIs : left.Is dividend)
    (rightIs : right.Is divisor)
    (nonzero : divisor ≠ 0) :
    (left % right).Is (dividend % divisor : Nat) := by
  have represents :=
    leftIs.represents.of_le (Nat.mod_le dividend divisor)
  obtain ⟨leftValue, leftExact⟩ := leftIs
  obtain ⟨rightValue, rightExact⟩ := rightIs
  rw [Int.ofNat_tmod, ← leftValue, ← rightValue] at represents ⊢
  exact compute_is represents
    (by simp [leftExact, rightExact, rightValue, nonzero])

/-- A conversion that keeps the value. -/
theorem convert
    (is : number.Is first)
    (represents : other.Represents first) :
    (number.convert other).Is first := by
  obtain ⟨rfl, exact⟩ := is
  exact compute_is represents exact

end Is

/-- Numbers added up one after the other. -/
def total
    (type : IntType)
    (numbers : List Nat) : CInt type :=
  numbers.foldl (fun sum (number : Nat) => sum + ofInt type number) 0

/-- No numbers add up to zero. -/
@[simp] theorem total_nil : total type [] = 0 := by
  simp [total]

/-- One more number is added to what there is. -/
theorem total_concat
    (numbers : List Nat)
    (last : Nat) :
    total type (numbers ++ [last]) =
      total type numbers + ofInt type last := by
  simp [total]

/-- The numbers add up exactly as long as their sum is in range. -/
theorem total_is
    {numbers : List Nat}
    (represents : type.Represents numbers.sum) :
    (total type numbers).Is numbers.sum := by
  induction numbers using List.reverseRecOn with
  | nil =>
      exact literal_is represents
  | append_singleton numbers last inductionHypothesis =>
      rw [List.sum_append, List.sum_singleton] at represents ⊢
      have before : type.Represents numbers.sum :=
        represents.of_le (Nat.le_add_right _ _)
      have small : type.Represents last :=
        represents.of_le (Nat.le_add_left _ _)
      rw [total_concat, Int.natCast_add]
      exact (inductionHypothesis before).add (ofInt_is small)
        (by rwa [← Int.natCast_add])

/-- And only as long as it is. -/
theorem total_is_iff
    {numbers : List Nat} :
    (total type numbers).Is numbers.sum ↔
      type.Represents numbers.sum :=
  ⟨Is.represents, total_is⟩

end CInt

end SThread.Library
