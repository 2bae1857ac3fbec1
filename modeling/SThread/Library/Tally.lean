import Mathlib.Algebra.BigOperators.Group.Finset.Basic
import Mathlib.Algebra.Order.BigOperators.Group.Finset
import Mathlib.Algebra.BigOperators.Group.Finset.Piecewise

namespace SThread.Library

/-!
# Tallies over threads

Accounting laws of concurrent programs add up, over all threads, a weight that
can be read off one thread's local state: a one for every thread at a given
program point, or the multiset of things it currently holds.  A step changes
the local state of one thread, so the sum moves by the difference of two
weights.
-/

/-- The sum over all threads of a weight of their local states. -/
def tally
    {Thread Local Weight : Type*}
    [Fintype Thread]
    [AddCommMonoid Weight]
    (weight : Local → Weight)
    (locals : Thread → Local) : Weight :=
  ∑ thread, weight (locals thread)

/-- The number of threads whose local state passes a test. -/
def population
    {Thread Local : Type*}
    [Fintype Thread]
    (test : Local → Bool)
    (locals : Thread → Local) : Nat :=
  (Finset.univ.filter fun thread => test (locals thread) = true).card

/-- Counting threads is tallying a one for each of them. -/
theorem population_eq_tally
    {Thread Local : Type*}
    [Fintype Thread]
    (test : Local → Bool)
    (locals : Thread → Local) :
    population test locals =
      tally (fun place => (test place).toNat) locals := by
  unfold population tally
  rw [Finset.card_filter]
  apply Finset.sum_congr rfl
  intro thread _
  cases passes : test (locals thread) <;>
    simp [passes]

/-- Equal weights everywhere give equal tallies. -/
theorem tally_congr
    {Thread Local Weight : Type*}
    [Fintype Thread]
    [AddCommMonoid Weight]
    {weight : Local → Weight}
    {before after : Thread → Local}
    (same :
      ∀ thread, weight (after thread) = weight (before thread)) :
    tally weight after = tally weight before :=
  Finset.sum_congr rfl (fun thread _ => same thread)

/--
When only one thread's weight may change, the tally moves by the difference of
that thread's weights.
-/
theorem tally_change
    {Thread Local Weight : Type*}
    [Fintype Thread]
    [AddCommMonoid Weight]
    {weight : Local → Weight}
    {before after : Thread → Local}
    (actor : Thread)
    (others :
      ∀ thread,
        thread ≠ actor →
        weight (after thread) = weight (before thread)) :
    tally weight after + weight (before actor) =
      tally weight before + weight (after actor) := by
  classical
  have rest :
      ∑ thread ∈ Finset.univ.erase actor, weight (after thread) =
        ∑ thread ∈ Finset.univ.erase actor, weight (before thread) :=
    Finset.sum_congr rfl
      (fun thread member =>
        others thread (Finset.ne_of_mem_erase member))
  have splitAfter :
      tally weight after =
        weight (after actor) +
          ∑ thread ∈ Finset.univ.erase actor, weight (after thread) :=
    (Finset.add_sum_erase Finset.univ
      (fun thread => weight (after thread))
      (Finset.mem_univ actor)).symm
  have splitBefore :
      tally weight before =
        weight (before actor) +
          ∑ thread ∈ Finset.univ.erase actor, weight (before thread) :=
    (Finset.add_sum_erase Finset.univ
      (fun thread => weight (before thread))
      (Finset.mem_univ actor)).symm
  rw [splitAfter, splitBefore, rest]
  ac_rfl

/-- Moving one thread exchanges its weight. -/
theorem tally_update
    {Thread Local Weight : Type*}
    [Fintype Thread]
    [DecidableEq Thread]
    [AddCommMonoid Weight]
    (weight : Local → Weight)
    (locals : Thread → Local)
    (actor : Thread)
    (place : Local) :
    tally weight (Function.update locals actor place) +
        weight (locals actor) =
      tally weight locals + weight place := by
  have others :
      ∀ thread,
        thread ≠ actor →
        weight (Function.update locals actor place thread) =
          weight (locals thread) := by
    intro thread different
    rw [Function.update_of_ne different]
  have change := tally_change actor others
  rwa [Function.update_self] at change

/-- Moving it to a place of the same weight changes nothing. -/
theorem tally_update_same
    {Thread Local Weight : Type*}
    [Fintype Thread]
    [DecidableEq Thread]
    [AddCommMonoid Weight]
    {weight : Local → Weight}
    {locals : Thread → Local}
    {actor : Thread}
    {place : Local}
    (same : weight place = weight (locals actor)) :
    tally weight (Function.update locals actor place) =
      tally weight locals := by
  refine tally_congr ?_
  intro thread
  by_cases itself : thread = actor
  · subst itself
    rw [Function.update_self, same]
  · rw [Function.update_of_ne itself]

/-- A weight that is never more adds up to no more. -/
theorem tally_le
    {Thread Local : Type*}
    [Fintype Thread]
    {weight weight' : Local → Nat}
    (locals : Thread → Local)
    (below : ∀ place, weight place ≤ weight' place) :
    tally weight locals ≤ tally weight' locals :=
  Finset.sum_le_sum (fun thread _ => below (locals thread))

/-- And to less when it is less for somebody. -/
theorem tally_lt
    {Thread Local : Type*}
    [Fintype Thread]
    {weight weight' : Local → Nat}
    {locals : Thread → Local}
    (below : ∀ place, weight place ≤ weight' place)
    (actor : Thread)
    (less : weight (locals actor) < weight' (locals actor)) :
    tally weight locals < tally weight' locals :=
  Finset.sum_lt_sum (fun thread _ => below (locals thread))
    ⟨actor, Finset.mem_univ actor, less⟩

/--
A balance survives a step that moves both sides, and the weight of one thread,
by matching amounts.
-/
theorem balance_step
    {Weight : Type*}
    [AddCancelCommMonoid Weight]
    {credit debit total credit' debit' total' before after : Weight}
    (balanced : credit = debit + total)
    (moved : total' + before = total + after)
    (matching : credit' + debit + before = credit + debit' + after) :
    credit' = debit' + total' := by
  have sums :
      credit' + (debit + before) = debit' + total' + (debit + before) :=
    calc
      credit' + (debit + before) = credit' + debit + before := by
        rw [add_assoc]
      _ = credit + debit' + after := matching
      _ = debit + total + debit' + after := by
        rw [balanced]
      _ = debit' + (total + after) + debit := by
        ac_rfl
      _ = debit' + (total' + before) + debit := by
        rw [moved]
      _ = debit' + total' + (debit + before) := by
        ac_rfl
  exact add_right_cancel sums

/-- The counting form of `tally_change`. -/
theorem population_change
    {Thread Local : Type*}
    [Fintype Thread]
    {test : Local → Bool}
    {before after : Thread → Local}
    (actor : Thread)
    (others :
      ∀ thread,
        thread ≠ actor →
        test (after thread) = test (before thread)) :
    population test after + (test (before actor)).toNat =
      population test before + (test (after actor)).toNat := by
  rw [population_eq_tally, population_eq_tally]
  exact tally_change actor
    (fun thread different => by rw [others thread different])

/-- Threads passing the same tests are counted alike. -/
theorem population_congr
    {Thread Local : Type*}
    [Fintype Thread]
    {test : Local → Bool}
    {before after : Thread → Local}
    (same :
      ∀ thread, test (after thread) = test (before thread)) :
    population test after = population test before := by
  rw [population_eq_tally, population_eq_tally]
  exact tally_congr (fun thread => by rw [same thread])

/-- A thread that passes the test makes the count positive. -/
theorem population_pos
    {Thread Local : Type*}
    [Fintype Thread]
    {test : Local → Bool}
    {locals : Thread → Local} :
    0 < population test locals ↔
      ∃ thread, test (locals thread) = true := by
  unfold population
  rw [Finset.card_pos]
  constructor
  · rintro ⟨thread, member⟩
    exact ⟨thread, (Finset.mem_filter.mp member).2⟩
  · rintro ⟨thread, passes⟩
    exact ⟨thread, Finset.mem_filter.mpr ⟨Finset.mem_univ thread, passes⟩⟩

/-- Nobody passes the test exactly when the count is zero. -/
theorem population_eq_zero
    {Thread Local : Type*}
    [Fintype Thread]
    {test : Local → Bool}
    {locals : Thread → Local} :
    population test locals = 0 ↔
      ∀ thread, test (locals thread) = false := by
  constructor
  · intro empty thread
    cases passes : test (locals thread) with
    | false =>
        rfl
    | true =>
        have positive : 0 < population test locals :=
          population_pos.mpr ⟨thread, passes⟩
        exact absurd empty positive.ne'
  · intro fails
    unfold population
    rw [Finset.card_eq_zero, Finset.filter_eq_empty_iff]
    intro thread _ passes
    rw [fails thread] at passes
    exact Bool.noConfusion passes

end SThread.Library
