import SThread.Library.Transition

namespace SThread.Library

/-!
# A closable bounded FIFO channel

What a shared queue is for, independently of how it is stored and of who calls
it: items are linked at the back while the channel is open and has room, they
leave from the front, and closing stops the linking for good.

`linked` and `removed` are the histories of the two kinds of operation.
-/

/-- A channel with its two histories; capacity zero means unbounded. -/
structure Channel (Item : Type) where
  capacity : Nat
  contents : List Item
  linked : List Item
  removed : List Item
  closed : Bool

namespace Channel

/-- There is room for one more item. -/
def HasRoom
    {Item : Type}
    (channel : Channel Item) : Prop :=
  channel.capacity = 0 ∨ channel.contents.length < channel.capacity

/-- One operation on a channel. -/
inductive Step
    {Item : Type} : Channel Item → Channel Item → Prop where
  | link
      (channel : Channel Item)
      (item : Item)
      (opened : channel.closed = false)
      (room : channel.HasRoom) :
      Step channel {
        channel with
          contents := channel.contents ++ [item]
          linked := channel.linked ++ [item] }
  | remove
      (channel : Channel Item)
      (item : Item)
      (rest : List Item)
      (front : channel.contents = item :: rest) :
      Step channel {
        channel with
          contents := rest
          removed := channel.removed ++ [item] }
  | close
      (channel : Channel Item) :
      Step channel { channel with closed := true }

/-- The channel system: it starts open, empty and without a history. -/
def system
    (Item : Type)
    (capacity : Nat) : System (Channel Item) where
  init channel :=
    channel = {
      capacity := capacity
      contents := []
      linked := []
      removed := []
      closed := false }
  next :=
    Step

/-- The laws every run of a channel obeys. -/
structure Lawful
    {Item : Type}
    (capacity : Nat)
    (channel : Channel Item) : Prop where
  capacity_eq :
    channel.capacity = capacity
  order :
    channel.linked = channel.removed ++ channel.contents
  bounded :
    0 < capacity → channel.contents.length ≤ capacity

/-- Every operation keeps the laws. -/
theorem Lawful.step
    {Item : Type}
    {capacity : Nat}
    {channel later : Channel Item}
    (lawful : channel.Lawful capacity)
    (step : Step channel later) :
    later.Lawful capacity := by
  cases step with
  | link item opened room =>
      refine ⟨lawful.capacity_eq, ?_, ?_⟩
      · simp [lawful.order]
      · intro positive
        have room := room
        unfold HasRoom at room
        rw [lawful.capacity_eq] at room
        simp only [List.length_append, List.length_singleton]
        omega
  | remove item rest front =>
      refine ⟨lawful.capacity_eq, ?_, ?_⟩
      · simp [lawful.order, front]
      · intro positive
        have bounded := lawful.bounded positive
        rw [front, List.length_cons] at bounded
        exact Nat.le_of_succ_le bounded
  | close =>
      exact ⟨lawful.capacity_eq, lawful.order, lawful.bounded⟩

/-- Every reachable channel obeys the laws. -/
theorem reachable_lawful
    {Item : Type}
    {capacity : Nat}
    {channel : Channel Item}
    (reachable : (system Item capacity).Reachable channel) :
    channel.Lawful capacity := by
  refine System.Reachable.invariant (Lawful capacity)
    ?_ ?_ reachable
  · rintro first rfl
    exact ⟨rfl, rfl, fun _ => Nat.zero_le _⟩
  · intro before after _ lawful step
    exact lawful.step step

end Channel

end SThread.Library
