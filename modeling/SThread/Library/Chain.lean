import Mathlib.Data.List.Basic
import Mathlib.Data.List.Nodup

namespace SThread.Library

/-!
# Singly linked lists in a heap

A heap is seen here only through its links: `link cell` is `none` for a cell
that is not allocated, `some none` for a cell whose link is null, and
`some (some next)` for a cell that points to `next`.
-/

/-- Following links from `start` visits exactly `cells` and ends in null. -/
def Chain
    {Cell : Type*}
    (link : Cell → Option (Option Cell)) :
    Option Cell → List Cell → Prop
  | start, [] =>
      start = none
  | start, cell :: rest =>
      start = some cell ∧
        ∃ next, link cell = some next ∧ Chain link next rest

namespace Chain

/-- A chain from null is empty. -/
theorem eq_nil
    {Cell : Type*}
    {link : Cell → Option (Option Cell)}
    {cells : List Cell}
    (chain : Chain link none cells) :
    cells = [] := by
  cases cells with
  | nil =>
      rfl
  | cons cell rest =>
      have startsSomewhere := chain.1
      contradiction

/-- A chain from a cell begins with that cell and goes on from its link. -/
theorem uncons
    {Cell : Type*}
    {link : Cell → Option (Option Cell)}
    {first : Cell}
    {cells : List Cell}
    (chain : Chain link (some first) cells) :
    ∃ next rest,
      cells = first :: rest ∧
        link first = some next ∧
        Chain link next rest := by
  cases cells with
  | nil =>
      contradiction
  | cons cell rest =>
      obtain ⟨start, next, here, later⟩ := chain
      obtain rfl := Option.some.inj start
      exact ⟨next, rest, rfl, here, later⟩

/-- The start of a chain is its first cell. -/
theorem start_eq
    {Cell : Type*}
    {link : Cell → Option (Option Cell)}
    {start : Option Cell}
    {cells : List Cell}
    (chain : Chain link start cells) :
    start = cells.head? := by
  cases cells with
  | nil =>
      exact chain
  | cons cell rest =>
      exact chain.1

/-- A heap and a start determine the cells. -/
theorem functional
    {Cell : Type*}
    {link : Cell → Option (Option Cell)}
    {start : Option Cell}
    {cells others : List Cell}
    (first : Chain link start cells)
    (second : Chain link start others) :
    cells = others := by
  induction cells generalizing start others with
  | nil =>
      have null : start = none := first
      subst null
      exact second.eq_nil.symm
  | cons cell rest inductionHypothesis =>
      obtain ⟨startIs, next, here, later⟩ := first
      subst startIs
      obtain ⟨otherNext, otherRest, shape, otherHere, otherLater⟩ :=
        second.uncons
      rw [here] at otherHere
      obtain rfl := Option.some.inj otherHere
      rw [shape, inductionHypothesis later otherLater]

/-- Every suffix of a chain is a chain from its first cell. -/
theorem suffix
    {Cell : Type*}
    {link : Cell → Option (Option Cell)}
    {start : Option Cell}
    {earlier : List Cell}
    {cell : Cell}
    {later : List Cell}
    (chain : Chain link start (earlier ++ cell :: later)) :
    Chain link (some cell) (cell :: later) := by
  induction earlier generalizing start with
  | nil =>
      exact ⟨rfl, chain.2⟩
  | cons head tail inductionHypothesis =>
      obtain ⟨_, next, _, rest⟩ := chain
      exact inductionHypothesis rest

/-- Every cell of a chain is allocated. -/
theorem allocated
    {Cell : Type*}
    {link : Cell → Option (Option Cell)}
    {start : Option Cell}
    {cells : List Cell}
    (chain : Chain link start cells)
    {cell : Cell}
    (member : cell ∈ cells) :
    ∃ next, link cell = some next := by
  obtain ⟨earlier, later, shape⟩ := List.append_of_mem member
  rw [shape] at chain
  obtain ⟨_, next, here, _⟩ := chain.suffix
  exact ⟨next, here⟩

/-- A chain that ends in null visits no cell twice. -/
theorem nodup
    {Cell : Type*}
    {link : Cell → Option (Option Cell)}
    {start : Option Cell}
    {cells : List Cell}
    (chain : Chain link start cells) :
    cells.Nodup := by
  induction cells generalizing start with
  | nil =>
      exact List.nodup_nil
  | cons cell rest inductionHypothesis =>
      obtain ⟨startIs, next, here, later⟩ := chain
      refine List.nodup_cons.mpr ⟨?_, inductionHypothesis later⟩
      intro again
      -- a second visit would have to go on exactly like the first one
      obtain ⟨between, after, shape⟩ := List.append_of_mem again
      have fromFirst : Chain link (some cell) (cell :: rest) :=
        ⟨rfl, next, here, later⟩
      have fromSecond : Chain link (some cell) (cell :: after) := by
        rw [shape] at later
        exact later.suffix
      have sameRest : rest = after :=
        (List.cons.inj (fromFirst.functional fromSecond)).2
      have lengths := congrArg List.length shape
      rw [sameRest] at lengths
      simp only [List.length_append, List.length_cons] at lengths
      omega

/-- Only the links of the visited cells matter. -/
theorem congr
    {Cell : Type*}
    {before after : Cell → Option (Option Cell)}
    {start : Option Cell}
    {cells : List Cell}
    (chain : Chain before start cells)
    (same : ∀ cell ∈ cells, after cell = before cell) :
    Chain after start cells := by
  induction cells generalizing start with
  | nil =>
      exact chain
  | cons cell rest inductionHypothesis =>
      obtain ⟨startIs, next, here, later⟩ := chain
      refine ⟨startIs, next, ?_, ?_⟩
      · rw [same cell List.mem_cons_self, here]
      · exact inductionHypothesis later
          (fun other member =>
            same other (List.mem_cons_of_mem cell member))

/-- Linking a fresh cell behind the last one appends it to the chain. -/
theorem append_last
    {Cell : Type*}
    {before after : Cell → Option (Option Cell)}
    {start : Option Cell}
    {cells : List Cell}
    {last fresh : Cell}
    (chain : Chain before start cells)
    (lastIs : cells.getLast? = some last)
    (lastLinks : after last = some (some fresh))
    (freshEnds : after fresh = some none)
    (others :
      ∀ cell ∈ cells, cell ≠ last → after cell = before cell) :
    Chain after start (cells ++ [fresh]) := by
  induction cells generalizing start with
  | nil =>
      contradiction
  | cons cell rest inductionHypothesis =>
      have noRepeat := chain.nodup
      obtain ⟨startIs, next, here, later⟩ := chain
      cases rest with
      | nil =>
          obtain rfl : cell = last := Option.some.inj lastIs
          exact ⟨startIs, some fresh, lastLinks, rfl,
            none, freshEnds, rfl⟩
      | cons second rest =>
          have lastInRest :
              (second :: rest).getLast? = some last := by
            rwa [List.getLast?_cons_cons] at lastIs
          have notLast : cell ≠ last := by
            intro same
            subst same
            exact (List.nodup_cons.mp noRepeat).1
              (List.mem_of_getLast? lastInRest)
          refine ⟨startIs, next, ?_, ?_⟩
          · rw [others cell List.mem_cons_self notLast, here]
          · exact inductionHypothesis later lastInRest
              (fun other member =>
                others other (List.mem_cons_of_mem cell member))

end Chain

end SThread.Library
