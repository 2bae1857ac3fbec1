import Mathlib.Data.Nat.ModEq
import Mathlib.Logic.Function.Basic

namespace SThread.Library

/-!
# Rings of slots

A ring is a row of slots that are written in turn and read in turn.  Nothing in
it keeps a writer from overwriting a value that nobody has read; `unread` is
ghost state that notes which slots hold such a value.  `Holds` says which queue
is in the ring.

Nothing here mentions a particular program.
-/

/-- The slots, which of them hold an unread value, and the next to use. -/
structure RingBuffer (Value : Type) where
  slots : Nat → Value
  unread : Nat → Bool
  input : Nat
  output : Nat

namespace RingBuffer

variable
    {Value : Type}

/-- A ring before its first use. -/
def initial (value : Value) : RingBuffer Value where
  slots := fun _ => value
  unread := fun _ => false
  input := 0
  output := 0

/-- Write the next slot. -/
def write
    (size : Nat)
    (ring : RingBuffer Value)
    (value : Value) : RingBuffer Value :=
  { ring with
    slots := Function.update ring.slots ring.input value
    unread := Function.update ring.unread ring.input true
    input := (ring.input + 1) % size }

/-- The first half of a write: the value is in its slot. -/
def store
    (ring : RingBuffer Value)
    (value : Value) : RingBuffer Value :=
  { ring with slots := Function.update ring.slots ring.input value }

/-- The second half: the slot is full, and the next one is to be written. -/
def push
    (size : Nat)
    (ring : RingBuffer Value) : RingBuffer Value :=
  { ring with
    unread := Function.update ring.unread ring.input true
    input := (ring.input + 1) % size }

/-- The value in the slot that is read next. -/
def next (ring : RingBuffer Value) : Value :=
  ring.slots ring.output

/-- Be done with the slot that is read next. -/
def advance
    (size : Nat)
    (ring : RingBuffer Value) : RingBuffer Value :=
  { ring with
    unread := Function.update ring.unread ring.output false
    output := (ring.output + 1) % size }

/-- The unread values, oldest first. -/
structure Holds
    (size : Nat)
    (ring : RingBuffer Value)
    (queue : List Value) : Prop where
  output : ring.output < size
  input : ring.input = (ring.output + queue.length) % size
  room : queue.length ≤ size
  values :
    ∀ offset (inside : offset < queue.length),
      ring.slots ((ring.output + offset) % size) = queue[offset]
  unread :
    ∀ offset < size,
      ring.unread ((ring.output + offset) % size) =
        decide (offset < queue.length)

/-- Offsets within one revolution are different slots. -/
theorem offset_inj
    {size start first second : Nat}
    (firstSmall : first < size)
    (secondSmall : second < size)
    (same : (start + first) % size = (start + second) % size) :
    first = second := by
  have modular : first ≡ second [MOD size] :=
    Nat.ModEq.add_left_cancel' start same
  exact modular.eq_of_lt_of_lt firstSmall secondSmall

variable
    {size : Nat}
    {ring : RingBuffer Value}
    {queue : List Value}
    {value : Value}

/-- A new ring is empty. -/
theorem holds_initial
    (positive : 0 < size)
    (value : Value) :
    (initial value).Holds size [] where
  output := positive
  input := by
    simp [initial]
  room := Nat.zero_le size
  values := by
    intro offset inside
    cases inside
  unread := by
    intro offset _
    rfl

namespace Holds

/-- A slot that is written when there is room holds no unread value. -/
theorem input_read
    (holds : ring.Holds size queue)
    (room : queue.length < size) :
    ring.unread ring.input = false := by
  rw [holds.input, holds.unread queue.length room]
  simp

/-- A value that is written when there is room is the last of the queue. -/
theorem write
    (holds : ring.Holds size queue)
    (room : queue.length < size)
    (value : Value) :
    (ring.write size value).Holds size (queue ++ [value]) := by
  have input := holds.input
  constructor
  · exact holds.output
  · simp only [RingBuffer.write, List.length_append, List.length_singleton]
    rw [input, Nat.mod_add_mod, Nat.add_assoc]
  · rw [List.length_append, List.length_singleton]
    exact room
  · intro offset inside
    simp only [RingBuffer.write, input]
    rw [List.length_append, List.length_singleton] at inside
    by_cases last : offset = queue.length
    · subst last
      simp
    · have before : offset < queue.length := by omega
      have elsewhere :
          (ring.output + offset) % size ≠
            (ring.output + queue.length) % size := by
        intro same
        exact last (offset_inj (by omega) room same)
      rw [Function.update_of_ne elsewhere, holds.values offset before,
        List.getElem_append_left before]
  · intro offset small
    simp only [RingBuffer.write, input, List.length_append,
      List.length_singleton]
    by_cases last : offset = queue.length
    · subst last
      simp
    · have elsewhere :
          (ring.output + offset) % size ≠
            (ring.output + queue.length) % size := by
        intro same
        exact last (offset_inj small room same)
      rw [Function.update_of_ne elsewhere, holds.unread offset small]
      apply decide_eq_decide.mpr
      omega

/-- A value that is stored when there is room is not in the queue yet. -/
theorem store
    (holds : ring.Holds size queue)
    (room : queue.length < size)
    (value : Value) :
    (ring.store value).Holds size queue where
  output := holds.output
  input := holds.input
  room := holds.room
  values := by
    intro offset inside
    have elsewhere :
        (ring.output + offset) % size ≠
          (ring.output + queue.length) % size := by
      intro same
      exact inside.ne (offset_inj (inside.trans room) room same)
    simp only [RingBuffer.store, holds.input]
    rw [Function.update_of_ne elsewhere, holds.values offset inside]
  unread := holds.unread

/-- It is the last of the queue once its slot is full. -/
theorem push
    (holds : ring.Holds size queue)
    (room : queue.length < size)
    (stored : ring.slots ring.input = value) :
    (ring.push size).Holds size (queue ++ [value]) := by
  have written : ring.push size = ring.write size value := by
    rw [RingBuffer.push, RingBuffer.write, ← stored,
      Function.update_eq_self]
  rw [written]
  exact holds.write room value

/-- The value that is read next is the first of the queue. -/
theorem next
    (holds : ring.Holds size (value :: queue)) :
    ring.next = value := by
  have first := holds.values 0 (Nat.succ_pos _)
  rw [Nat.add_zero, Nat.mod_eq_of_lt holds.output] at first
  exact first

/-- Nor is it read twice. -/
theorem output_unread
    (holds : ring.Holds size (value :: queue)) :
    ring.unread ring.output = true := by
  have positive := Nat.zero_lt_of_lt holds.output
  have first := holds.unread 0 positive
  rw [Nat.add_zero, Nat.mod_eq_of_lt holds.output] at first
  rw [first]
  simp

/-- Reading leaves the rest of the queue. -/
theorem advance
    (holds : ring.Holds size (value :: queue)) :
    (ring.advance size).Holds size queue := by
  have positive := Nat.zero_lt_of_lt holds.output
  have room := holds.room
  rw [List.length_cons] at room
  have shift :
      ∀ offset,
        ((ring.output + 1) % size + offset) % size =
          (ring.output + (offset + 1)) % size := by
    intro offset
    rw [Nat.mod_add_mod, Nat.add_assoc, Nat.add_comm 1]
  constructor
  · exact Nat.mod_lt _ positive
  · simp only [RingBuffer.advance, shift]
    exact holds.input
  · exact Nat.le_of_succ_le room
  · intro offset inside
    simp only [RingBuffer.advance, shift]
    exact holds.values (offset + 1) (Nat.succ_lt_succ inside)
  · intro offset small
    simp only [RingBuffer.advance, shift]
    by_cases last : offset + 1 = size
    · -- the slot that has just been read comes round last
      have same : (ring.output + (offset + 1)) % size = ring.output := by
        rw [last, Nat.add_mod_right, Nat.mod_eq_of_lt holds.output]
      have beyond : ¬ offset < queue.length := by omega
      simp [same, beyond]
    · have elsewhere :
          (ring.output + (offset + 1)) % size ≠ ring.output := by
        intro same
        have wrapped :
            (ring.output + (offset + 1)) % size =
              (ring.output + 0) % size := by
          rw [same, Nat.add_zero, Nat.mod_eq_of_lt holds.output]
        exact absurd (offset_inj (by omega) positive wrapped) (by simp)
      rw [Function.update_of_ne elsewhere,
        holds.unread (offset + 1) (by omega)]
      simp

end Holds

end RingBuffer

end SThread.Library
