import SThread.Library.CInt

namespace SThread.Platform

open SThread.Library

/-!
# Absolute deadlines

`platform_get_abstime` in its two branches, with the integer types of the
source where `long` and `time_t` have 64 bits.  A conversion that C makes by
itself is written out as `convert`.
-/

/-- `struct timespec`. -/
structure Timespec where
  tvSec : CInt .long
  tvNsec : CInt .long

/-- `struct timeval` where microseconds are an `int`. -/
structure Timeval where
  tvSec : CInt .long
  tvUsec : CInt .int

/-- What the real-time clock reads, on either platform. -/
inductive Clock where
  | linux (ts : Timespec)
  | macos (tv : Timeval)

/-- The end of both branches: one carry into the seconds. -/
def Timespec.carry (ts : Timespec) : Timespec :=
  if ts.tvNsec.value ≥ 1000000000 then
    { tvSec := ts.tvSec + 1
      tvNsec := ts.tvNsec - 1000000000 }
  else
    ts

/-- The branch for Linux. -/
def platformGetAbstimeLinux
    (ts : Timespec)
    (timeoutMs : CInt .uint) : Timespec :=
  Timespec.carry {
    tvSec := ts.tvSec + (timeoutMs / 1000).convert .long
    tvNsec := ts.tvNsec + ((timeoutMs % 1000) * 1000000).convert .long }

/-- The branch for macOS, where the sum is one of `unsigned int`. -/
def platformGetAbstimeMacos
    (tv : Timeval)
    (timeoutMs : CInt .uint) : Timespec :=
  Timespec.carry {
    tvSec := tv.tvSec + (timeoutMs / 1000).convert .long
    tvNsec :=
      ((tv.tvUsec * 1000).convert .uint +
        (timeoutMs % 1000) * 1000000).convert .long }

/-- An argument of type `unsigned int`. -/
def ofUInt32 (number : UInt32) : CInt .uint :=
  .ofInt .uint number.toNat

/-- `platform_get_abstime`. -/
def platformGetAbstime
    (clock : Clock)
    (timeoutMs : UInt32) : Timespec :=
  match clock with
  | .linux ts => platformGetAbstimeLinux ts (ofUInt32 timeoutMs)
  | .macos tv => platformGetAbstimeMacos tv (ofUInt32 timeoutMs)

namespace Timespec

/-- All nanoseconds of a time. -/
def nanoseconds (ts : Timespec) : Int :=
  ts.tvSec.value * 10 ^ 9 + ts.tvNsec.value

/-- The order in which times come. -/
def Before (first second : Timespec) : Prop :=
  first.tvSec.value < second.tvSec.value ∨
    first.tvSec.value = second.tvSec.value ∧
      first.tvNsec.value < second.tvNsec.value

/-- A normalised time that has been computed without wrapping. -/
structure Denotes
    (ts : Timespec)
    (nanoseconds : Int) : Prop where
  secExact : ts.tvSec.exact = true
  nsecExact : ts.tvNsec.exact = true
  nonneg : 0 ≤ ts.tvNsec.value
  normalised : ts.tvNsec.value < 10 ^ 9
  total : ts.nanoseconds = nanoseconds

variable
    {first second : Timespec}
    {earlier later sec nsec : Int}

/-- Normalised times come in the order of their nanoseconds. -/
theorem Denotes.before
    (firstDenotes : first.Denotes earlier)
    (secondDenotes : second.Denotes later)
    (less : earlier < later) :
    first.Before second := by
  obtain ⟨-, -, firstNonneg, firstSmall, rfl⟩ := firstDenotes
  obtain ⟨-, -, secondNonneg, secondSmall, rfl⟩ := secondDenotes
  unfold nanoseconds at less
  unfold Before
  rcases Int.lt_trichotomy first.tvSec.value second.tvSec.value with
    sooner | same | after
  · exact Or.inl sooner
  · rw [same] at less
    exact Or.inr ⟨same, Int.lt_of_add_lt_add_left less⟩
  · omega

/-- Normalised times with the same nanoseconds are the same. -/
theorem Denotes.unique
    (firstDenotes : first.Denotes sec)
    (secondDenotes : second.Denotes sec) :
    first = second := by
  have total := firstDenotes.total.trans secondDenotes.total.symm
  have firstNonneg := firstDenotes.nonneg
  have firstSmall := firstDenotes.normalised
  have secondNonneg := secondDenotes.nonneg
  have secondSmall := secondDenotes.normalised
  unfold nanoseconds at total
  have sameSec : first.tvSec.value = second.tvSec.value := by omega
  have sameNsec : first.tvNsec.value = second.tvNsec.value := by omega
  have secs : first.tvSec = second.tvSec :=
    CInt.Is.unique ⟨sameSec, firstDenotes.secExact⟩
      ⟨rfl, secondDenotes.secExact⟩
  have nsecs : first.tvNsec = second.tvNsec :=
    CInt.Is.unique ⟨sameNsec, firstDenotes.nsecExact⟩
      ⟨rfl, secondDenotes.nsecExact⟩
  rcases first with ⟨_, _⟩
  rcases second with ⟨_, _⟩
  rw [Timespec.mk.injEq]
  exact ⟨secs, nsecs⟩

/-- One carry is enough below two seconds. -/
theorem carry_denotes
    (ts : Timespec)
    (secIs : ts.tvSec.Is sec)
    (nsecIs : ts.tvNsec.Is nsec)
    (nonneg : 0 ≤ nsec)
    (twice : nsec < 2 * 10 ^ 9)
    (room : sec + 1 < 2 ^ 63) :
    ts.carry.Denotes (sec * 10 ^ 9 + nsec) := by
  have secRange := IntType.represents_long.mp secIs.represents
  unfold carry
  rw [nsecIs.value]
  split <;> rename_i comparison
  · have one : (1 : CInt .long).Is 1 :=
      CInt.literal_is (by decide)
    have billion : (1000000000 : CInt .long).Is 1000000000 :=
      CInt.literal_is (by decide)
    have carried := secIs.add one
      (IntType.represents_long.mpr (by omega))
    have left := nsecIs.sub billion
      (IntType.represents_long.mpr (by omega))
    refine ⟨carried.exact, left.exact, ?_, ?_, ?_⟩ <;>
      simp only [nanoseconds, carried.value, left.value] <;>
      omega
  · exact ⟨secIs.exact, nsecIs.exact,
      by rw [nsecIs.value]; exact nonneg,
      by rw [nsecIs.value]; omega,
      by rw [nanoseconds, secIs.value, nsecIs.value]⟩

end Timespec

namespace Clock

/-- All nanoseconds of a reading. -/
def nanoseconds : Clock → Int
  | .linux ts => ts.nanoseconds
  | .macos tv => tv.tvSec.value * 10 ^ 9 + tv.tvUsec.value * 1000

/-- The seconds of a reading. -/
def seconds : Clock → CInt .long
  | .linux ts => ts.tvSec
  | .macos tv => tv.tvSec

/-- A fraction of a second, in the unit of the platform. -/
def FractionValid : Clock → Prop
  | .linux ts =>
      ts.tvNsec.exact = true ∧
        0 ≤ ts.tvNsec.value ∧ ts.tvNsec.value < 10 ^ 9
  | .macos tv =>
      tv.tvUsec.exact = true ∧
        0 ≤ tv.tvUsec.value ∧ tv.tvUsec.value < 10 ^ 6

/-- A reading that leaves room in the seconds for every timeout. -/
structure Valid (clock : Clock) : Prop where
  secExact : clock.seconds.exact = true
  room : IntType.long.Represents (clock.seconds.value + 4294968)
  fraction : clock.FractionValid

end Clock

section Timeout

variable
    (timeoutMs : UInt32)

/-- The argument is what it is. -/
theorem ofUInt32_is :
    (ofUInt32 timeoutMs).Is timeoutMs.toNat := by
  have small := timeoutMs.toNat_lt
  exact CInt.ofInt_is (IntType.represents_uint.mpr (by omega))

/-- The whole seconds of a timeout. -/
theorem timeoutSeconds_is :
    ((ofUInt32 timeoutMs / 1000).convert .long).Is
      (timeoutMs.toNat / 1000 : Nat) := by
  have small := timeoutMs.toNat_lt
  have thousand : (1000 : CInt .uint).Is (1000 : Nat) :=
    CInt.literal_is (by decide)
  have quotient := (ofUInt32_is timeoutMs).div thousand (by decide)
  exact quotient.convert (IntType.represents_long.mpr (by omega))

/-- The rest of a timeout in nanoseconds fits an `unsigned int`. -/
theorem timeoutRest_is :
    ((ofUInt32 timeoutMs % 1000) * 1000000).Is
      (timeoutMs.toNat % 1000 * 1000000 : Nat) := by
  have small := timeoutMs.toNat_lt
  have thousand : (1000 : CInt .uint).Is (1000 : Nat) :=
    CInt.literal_is (by decide)
  have million : (1000000 : CInt .uint).Is (1000000 : Nat) :=
    CInt.literal_is (by decide)
  have remainder := (ofUInt32_is timeoutMs).mod thousand (by decide)
  have product :=
    remainder.mul million (IntType.represents_uint.mpr (by omega))
  rw [← Int.natCast_mul] at product
  exact product

/-- The branch for Linux computes the deadline. -/
theorem platformGetAbstimeLinux_denotes
    {ts : Timespec}
    (valid : (Clock.linux ts).Valid) :
    (platformGetAbstimeLinux ts (ofUInt32 timeoutMs)).Denotes
      (ts.nanoseconds + timeoutMs.toNat * 10 ^ 6) := by
  obtain ⟨secExact, room, nsecExact, nonneg, normalised⟩ := valid
  have small := timeoutMs.toNat_lt
  have secRange := IntType.represents_long.mp ts.tvSec.represented
  have secRoom := IntType.represents_long.mp room
  have secIs : ts.tvSec.Is ts.tvSec.value := ⟨rfl, secExact⟩
  have nsecIs : ts.tvNsec.Is ts.tvNsec.value := ⟨rfl, nsecExact⟩
  simp only [Clock.seconds] at secRoom
  have secs := secIs.add (timeoutSeconds_is timeoutMs)
    (IntType.represents_long.mpr (by omega))
  have rest := (timeoutRest_is timeoutMs).convert
    (IntType.represents_long.mpr (by omega))
  have nsecs := nsecIs.add rest
    (IntType.represents_long.mpr (by omega))
  have carried := Timespec.carry_denotes
    ⟨_, _⟩ secs nsecs (by omega) (by omega) (by omega)
  have total :
      (ts.tvSec.value + (timeoutMs.toNat / 1000 : Nat)) * 10 ^ 9 +
          (ts.tvNsec.value + (timeoutMs.toNat % 1000 * 1000000 : Nat)) =
        ts.nanoseconds + timeoutMs.toNat * 10 ^ 6 := by
    unfold Timespec.nanoseconds
    omega
  rw [total] at carried
  exact carried

/-- The branch for macOS computes the deadline. -/
theorem platformGetAbstimeMacos_denotes
    {tv : Timeval}
    (valid : (Clock.macos tv).Valid) :
    (platformGetAbstimeMacos tv (ofUInt32 timeoutMs)).Denotes
      ((Clock.macos tv).nanoseconds + timeoutMs.toNat * 10 ^ 6) := by
  obtain ⟨secExact, room, usecExact, nonneg, normalised⟩ := valid
  have small := timeoutMs.toNat_lt
  have secRange := IntType.represents_long.mp tv.tvSec.represented
  have secRoom := IntType.represents_long.mp room
  have secIs : tv.tvSec.Is tv.tvSec.value := ⟨rfl, secExact⟩
  have usecIs : tv.tvUsec.Is tv.tvUsec.value := ⟨rfl, usecExact⟩
  have thousand : (1000 : CInt .int).Is 1000 :=
    CInt.literal_is (by decide)
  simp only [Clock.seconds] at secRoom
  have secs := secIs.add (timeoutSeconds_is timeoutMs)
    (IntType.represents_long.mpr (by omega))
  have product := usecIs.mul thousand
    (IntType.represents_int.mpr (by omega))
  have fraction := product.convert
    (IntType.represents_uint.mpr (by omega))
  -- both summands stay below 10 ^ 9, so the unsigned sum stays below 2 ^ 32
  have sum := fraction.add (timeoutRest_is timeoutMs)
    (IntType.represents_uint.mpr (by omega))
  have nsecs := sum.convert
    (IntType.represents_long.mpr (by omega))
  have carried := Timespec.carry_denotes
    ⟨_, _⟩ secs nsecs (by omega) (by omega) (by omega)
  have total :
      (tv.tvSec.value + (timeoutMs.toNat / 1000 : Nat)) * 10 ^ 9 +
          (tv.tvUsec.value * 1000 +
            (timeoutMs.toNat % 1000 * 1000000 : Nat)) =
        (Clock.macos tv).nanoseconds + timeoutMs.toNat * 10 ^ 6 := by
    simp only [Clock.nanoseconds]
    omega
  rw [total] at carried
  exact carried

/-- `platform_get_abstime` adds the timeout to the reading, on both platforms. -/
theorem platformGetAbstime_denotes
    {clock : Clock}
    (valid : clock.Valid) :
    (platformGetAbstime clock timeoutMs).Denotes
      (clock.nanoseconds + timeoutMs.toNat * 10 ^ 6) := by
  cases clock with
  | linux ts =>
      exact platformGetAbstimeLinux_denotes timeoutMs valid
  | macos tv =>
      exact platformGetAbstimeMacos_denotes timeoutMs valid

end Timeout

end SThread.Platform
