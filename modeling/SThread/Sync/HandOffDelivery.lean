import Mathlib.Tactic.Ring
import SThread.Sync.HandOffRuns

namespace SThread.Sync.HandOff

open SThread.Library

/-!
# What a hand-off delivers

The tokens that each thread has taken and put back bound how far the producer
is ahead of the consumer.  So the ring holds the items in between, the consumer
reads them in order, and no item is overwritten before it is read.
-/

namespace State

/-- The tokens that a thread has taken from its semaphore. -/
def taken
    (state : State)
    (party : Party) : Nat :=
  state.rounds party + (state.place party).holds.toNat

/-- How often a thread has accessed the ring. -/
def accesses
    (state : State)
    (party : Party) : Nat :=
  state.rounds party + (state.place party).accessed.toNat

/-- The counter of a semaphore. -/
def counter
    (state : State)
    (owner : Party) : Nat :=
  (state.sems owner).sem.count.toNat

end State

/-- No token is lost or invented. -/
def Tokens
    (slots : UInt32)
    (state : State) : Prop :=
  ∀ owner,
    state.counter owner + state.taken owner =
      (credit slots owner).toNat + state.rounds owner.other

/-- The ring holds what has been written and not read, and the rest has been read. -/
structure Flow
    (slots : UInt32)
    (accesses : Party → Nat)
    (ring : RingBuffer Nat)
    (reads : List Nat)
    (sum : CInt .int) : Prop where
  order : accesses .consumer ≤ accesses .producer
  queue :
    ring.Holds slots.toNat
      (List.range' (accesses .consumer + 1)
        (accesses .producer - accesses .consumer))
  inOrder : reads = List.range' 1 (accesses .consumer)
  total : sum = CInt.total .int reads

/-- What every step keeps. -/
structure Invariant
    (slots : UInt32)
    (state : State) : Prop where
  control : Control state.sems state.place
  tokens : Tokens slots state
  flow :
    Flow slots state.accesses state.ring state.reads state.sum

section Counting

variable
    {slots : UInt32}
    {count : Nat}
    {state : State}
    {party : Party}

/-- A thread has never fewer accesses behind it than rounds. -/
theorem State.rounds_le_accesses
    (state : State)
    (party : Party) :
    state.rounds party ≤ state.accesses party :=
  Nat.le_add_right _ _

/-- At its access a thread has not accessed the ring in this round. -/
theorem State.accesses_of_access
    (here : state.place party = .access) :
    state.accesses party = state.rounds party := by
  simp [State.accesses, here, Place.accessed]

/-- But it has taken a token. -/
theorem State.taken_of_access
    (here : state.place party = .access) :
    state.taken party = state.rounds party + 1 := by
  simp [State.taken, here, Place.holds]

/-- At its access the producer has room in the ring. -/
theorem Tokens.room
    (tokens : Tokens slots state)
    (here : state.place .producer = .access) :
    state.accesses .producer < slots.toNat + state.accesses .consumer := by
  have balance := tokens .producer
  have behind := state.rounds_le_accesses .consumer
  rw [State.taken_of_access here] at balance
  rw [State.accesses_of_access here]
  simp only [credit, Party.other] at balance
  omega

/-- At its access the consumer is behind the producer. -/
theorem Tokens.item
    (tokens : Tokens slots state)
    (here : state.place .consumer = .access) :
    state.accesses .consumer < state.accesses .producer := by
  have balance := tokens .consumer
  have ahead := state.rounds_le_accesses .producer
  rw [State.taken_of_access here] at balance
  rw [State.accesses_of_access here]
  simp only [credit, Party.other, UInt32.toNat_zero] at balance
  omega

/-- Both counters together stay within the slots. -/
theorem Tokens.bound
    (tokens : Tokens slots state) :
    state.counter .producer + state.counter .consumer ≤ slots.toNat := by
  have space := tokens .producer
  have items := tokens .consumer
  simp only [State.taken, credit, Party.other, UInt32.toNat_zero]
    at space items
  omega

/-- Posting the semaphore does not wrap its counter. -/
theorem Tokens.post
    (tokens : Tokens slots state)
    (holds : (state.place party).holds = true) :
    state.counter party.other + 1 ≤ slots.toNat := by
  have space := tokens .producer
  have items := tokens .consumer
  cases party with
  | producer
  | consumer =>
      simp only [State.taken, credit, Party.other, UInt32.toNat_zero,
        holds, Bool.toNat_true] at space items ⊢
      omega

/-- Steps that leave the accesses alone leave the flow alone. -/
theorem Flow.of_accesses
    (flow :
      Flow slots state.accesses state.ring state.reads state.sum)
    (later : State)
    (same : ∀ party, later.accesses party = state.accesses party)
    (ring : later.ring = state.ring)
    (reads : later.reads = state.reads)
    (sum : later.sum = state.sum) :
    Flow slots later.accesses later.ring later.reads later.sum := by
  have accesses : later.accesses = state.accesses := funext same
  rw [accesses, ring, reads, sum]
  exact flow

end Counting

section Steps

variable
    {slots : UInt32}
    {count : Nat}
    {state later : State}
    {party : Party}

/-- Two states in which each thread and its semaphore count the same. -/
theorem Tokens.of_same
    (tokens : Tokens slots state)
    (counter : ∀ owner, later.counter owner = state.counter owner)
    (taken : ∀ owner, later.taken owner = state.taken owner)
    (rounds : later.rounds = state.rounds) :
    Tokens slots later := by
  intro owner
  rw [counter, taken, rounds]
  exact tokens owner

/-- A thread that moves in its loop has taken what it had, if its place says so. -/
theorem State.taken_setPlace
    {place : Place}
    (same : place.holds = (state.place party).holds)
    (thread : Party) :
    (state.setPlace party place).taken thread = state.taken thread := by
  unfold State.taken State.setPlace
  by_cases itself : thread = party
  · subst itself
    simp [same]
  · simp [Function.update_of_ne itself]

/-- The same for its accesses. -/
theorem State.accesses_setPlace
    {place : Place}
    (same : place.accessed = (state.place party).accessed)
    (thread : Party) :
    (state.setPlace party place).accesses thread =
      state.accesses thread := by
  unfold State.accesses State.setPlace
  by_cases itself : thread = party
  · subst itself
    simp [same]
  · simp [Function.update_of_ne itself]

/-- Replacing a semaphore by one with the same counter. -/
theorem State.counter_setSem
    {owner : Party}
    {sem : Sync.State Party}
    (same : sem.sem = (state.sems owner).sem)
    (other : Party) :
    (state.setSem owner sem).counter other = state.counter other := by
  unfold State.counter State.setSem
  by_cases itself : other = owner
  · subst itself
    simp [same]
  · simp [Function.update_of_ne itself]

/-- Returning from a call is no access. -/
theorem State.accesses_goOn
    (state : State)
    (party thread : Party) :
    (state.goOn party).accesses thread = state.accesses thread := by
  cases here : state.place party with
  | waiting =>
      rw [State.goOn_waiting here]
      exact State.accesses_setPlace (by rw [here]; rfl) thread
  | posting =>
      rw [State.goOn_posting here]
      unfold State.accesses State.setPlace
      by_cases itself : thread = party
      · subst itself
        simp [here, Place.accessed]
      · simp [Function.update_of_ne itself]
  | _ =>
      simp [State.goOn, here]

/-- A wait takes a token out of the counter. -/
theorem Tokens.take
    (tokens : Tokens slots state)
    (here : state.place party = .waiting)
    {sem : Sync.State Party}
    (available : (state.sems party).sem.count ≠ 0)
    (taken : sem.sem = (state.sems party).sem.take) :
    Tokens slots ((state.setSem party sem).setPlace party .access) := by
  intro owner
  have balance := tokens owner
  by_cases same : owner = party
  · subst same
    have fewer := SyncSem.take_toNat available
    simp only [State.counter, State.taken, here, Place.holds,
      Bool.toNat_false] at balance
    simp only [State.counter, State.taken, State.setSem, State.setPlace,
      Function.update_self, taken, Place.holds, Bool.toNat_true]
    omega
  · simpa [State.counter, State.taken, State.setSem, State.setPlace,
      Function.update_of_ne same] using balance

/-- A post puts the token into the other counter. -/
theorem Tokens.put
    (tokens : Tokens slots state)
    (here : state.place party = .posting)
    {sem : Sync.State Party}
    (posted :
      sem.sem = syncSemPost (state.sems party.other).sem) :
    Tokens slots ((state.setSem party.other sem).goOn party) := by
  have holds : (state.place party).holds = true := by
    rw [here]
    rfl
  have small := slots.toNat_lt
  have bound := tokens.post holds
  have more := syncSemPost_toNat (state.sems party.other).sem
  simp only [State.counter] at bound
  rw [State.goOn_posting (by exact here)]
  intro owner
  have balance := tokens owner
  by_cases same : owner = party
  · subst same
    simp only [State.counter, State.taken, here, Place.holds,
      Bool.toNat_true] at balance
    simp only [State.counter, State.taken, State.setSem, State.setPlace,
      Function.update_self, Function.update_of_ne owner.other_ne,
      Function.update_of_ne owner.other_ne.symm, Place.holds,
      Bool.toNat_false]
    omega
  · obtain rfl := Party.eq_other_of_ne same
    simp only [State.counter, State.taken, Party.other_other] at balance
    simp only [State.counter, State.taken, State.setSem, State.setPlace,
      Function.update_self, Function.update_of_ne party.other_ne,
      Party.other_other, posted]
    omega

/-- When the producer is at its access, the ring is not full. -/
theorem Flow.room
    (flow :
      Flow slots state.accesses state.ring state.reads state.sum)
    (tokens : Tokens slots state)
    (here : state.place .producer = .access) :
    (List.range' (state.accesses .consumer + 1)
      (state.accesses .producer - state.accesses .consumer)).length <
        slots.toNat := by
  rw [List.length_range']
  exact Nat.sub_lt_right_of_lt_add flow.order (tokens.room here)

/-- The producer writes the next item where nothing unread is. -/
theorem Flow.produce
    (flow :
      Flow slots state.accesses state.ring state.reads state.sum)
    (tokens : Tokens slots state)
    (here : state.place .producer = .access) :
    Flow slots (state.produce slots).accesses (state.produce slots).ring
      (state.produce slots).reads (state.produce slots).sum := by
  have order := flow.order
  have before := State.accesses_of_access here
  have producer :
      (state.produce slots).accesses .producer =
        state.accesses .producer + 1 := by
    simp [State.accesses, State.produce, State.setPlace, here,
      Place.accessed]
  have consumer :
      (state.produce slots).accesses .consumer =
        state.accesses .consumer := by
    simp [State.accesses, State.produce, State.setPlace]
  have written :=
    flow.queue.write (flow.room tokens here)
      (state.rounds .producer + 1)
  have longer :
      List.range' (state.accesses .consumer + 1)
            (state.accesses .producer - state.accesses .consumer) ++
          [state.rounds .producer + 1] =
        List.range' (state.accesses .consumer + 1)
          (state.accesses .producer + 1 - state.accesses .consumer) := by
    rw [Nat.succ_sub order, List.range'_1_concat, before]
    congr 2
    omega
  rw [longer] at written
  constructor
  · rw [producer, consumer]
    exact Nat.le_succ_of_le order
  · rw [producer, consumer]
    exact written
  · rw [consumer]
    exact flow.inOrder
  · exact flow.total

/-- The consumer reads the item that follows what it has read. -/
theorem Flow.consume
    (flow :
      Flow slots state.accesses state.ring state.reads state.sum)
    (tokens : Tokens slots state)
    (here : state.place .consumer = .access) :
    Flow slots (state.consume slots).accesses (state.consume slots).ring
      (state.consume slots).reads (state.consume slots).sum := by
  have item := tokens.item here
  have consumer :
      (state.consume slots).accesses .consumer =
        state.accesses .consumer + 1 := by
    simp [State.accesses, State.consume, State.setPlace, here,
      Place.accessed]
  have producer :
      (state.consume slots).accesses .producer =
        state.accesses .producer := by
    simp [State.accesses, State.consume, State.setPlace]
  have first :
      List.range' (state.accesses .consumer + 1)
          (state.accesses .producer - state.accesses .consumer) =
        (state.accesses .consumer + 1) ::
          List.range' (state.accesses .consumer + 1 + 1)
            (state.accesses .producer -
              (state.accesses .consumer + 1)) := by
    rw [← List.range'_succ]
    congr 1
    omega
  have queue := flow.queue
  rw [first] at queue
  have value := queue.next
  have reads :
      (state.consume slots).reads =
        List.range' 1 (state.accesses .consumer + 1) := by
    simp only [State.consume, value, flow.inOrder]
    rw [List.range'_1_concat, Nat.add_comm 1]
  constructor
  · rw [producer, consumer]
    omega
  · rw [producer, consumer]
    exact queue.advance
  · rw [consumer]
    exact reads
  · simp only [State.consume, CInt.total_concat, flow.total]

/-- Steps inside a call leave tokens and items where they are. -/
theorem Invariant.quiet
    (invariant : Invariant slots state)
    {owner : Party}
    {sem : Sync.State Party}
    {place : Place}
    (same : sem.sem = (state.sems owner).sem)
    (holds : place.holds = (state.place party).holds)
    (accessed : place.accessed = (state.place party).accessed) :
    Tokens slots ((state.setSem owner sem).setPlace party place) ∧
      Flow slots
        ((state.setSem owner sem).setPlace party place).accesses
        state.ring state.reads state.sum := by
  constructor
  · refine invariant.tokens.of_same ?_ ?_ rfl
    · exact State.counter_setSem same
    · exact State.taken_setPlace (by exact holds)
  · refine invariant.flow.of_accesses
      ((state.setSem owner sem).setPlace party place) ?_ rfl rfl rfl
    exact State.accesses_setPlace (by exact accessed)

/-- So do steps that leave the thread where it is in its loop. -/
theorem Invariant.unmoved
    (invariant : Invariant slots state)
    {owner : Party}
    {sem : Sync.State Party}
    (same : sem.sem = (state.sems owner).sem) :
    Tokens slots (state.setSem owner sem) ∧
      Flow slots (state.setSem owner sem).accesses state.ring
        state.reads state.sum :=
  ⟨invariant.tokens.of_same (State.counter_setSem same)
      (fun _ => rfl) rfl,
    invariant.flow⟩

/-- The invariant holds in the beginning. -/
theorem Invariant.initial
    (positive : 0 < slots.toNat) :
    Invariant slots (initial slots) where
  control := Control.initial slots
  tokens := by
    intro owner
    cases owner <;>
      simp [State.counter, State.taken, HandOff.initial, credit,
        Sync.State.initial, syncSemInit, Place.holds]
  flow :=
    { order := Nat.le_refl _
      queue := RingBuffer.holds_initial positive 0
      inOrder := rfl
      total := rfl }

/-- Every step keeps the invariant. -/
theorem Invariant.step
    (invariant : Invariant slots state)
    (step : Next slots count state later) :
    Invariant slots later := by
  have control := invariant.control
  suffices both :
      Tokens slots later ∧
        Flow slots later.accesses later.ring later.reads later.sum from
    ⟨control.step step, both.1, both.2⟩
  cases step with
  | callWait party pc here more starts =>
      exact invariant.quiet rfl (by rw [here]; rfl) (by rw [here]; rfl)
  | waitRefused party here more refused =>
      rw [start_wait (control.initialized party)] at refused
      contradiction
  | produce here =>
      have holds :
          Place.post.holds = (state.place .producer).holds := by
        rw [here]
        rfl
      exact ⟨invariant.tokens.of_same (fun _ => rfl)
          (State.taken_setPlace holds) rfl,
        invariant.flow.produce invariant.tokens here⟩
  | consume here =>
      have holds :
          Place.post.holds = (state.place .consumer).holds := by
        rw [here]
        rfl
      exact ⟨invariant.tokens.of_same (fun _ => rfl)
          (State.taken_setPlace holds) rfl,
        invariant.flow.consume invariant.tokens here⟩
  | callPost party pc here starts =>
      exact invariant.quiet rfl (by rw [here]; rfl) (by rw [here]; rfl)
  | postRefused party here refused =>
      rw [start_post (control.initialized party.other)] at refused
      contradiction
  | inside owner party sem step stays =>
      cases control.semStep step with
      | sleeps own here same asleep frame =>
          exact invariant.unmoved same
      | takes _ _ _ _ leaves _
      | posts _ _ _ leaves _ =>
          exact absurd leaves stays
  | returns owner party sem step leaves =>
      have flow := invariant.flow.of_accesses
        ((state.setSem owner sem).goOn party)
        (State.accesses_goOn (state.setSem owner sem) party)
      cases control.semStep step with
      | sleeps _ _ _ stays _ =>
          rw [leaves] at stays
          contradiction
      | takes own here available taken leaves frame =>
          subst own
          rw [State.goOn_waiting (by exact here)] at flow ⊢
          exact ⟨invariant.tokens.take here available taken,
            flow rfl rfl rfl⟩
      | posts foreign here posted leaves frame =>
          subst foreign
          refine ⟨invariant.tokens.put here posted, ?_⟩
          rw [State.goOn_posting (by exact here)] at flow ⊢
          exact flow rfl rfl rfl
  | spurious owner party here =>
      exact invariant.unmoved rfl

/-- The invariant holds in every reachable state. -/
theorem invariant_of_reachable
    (positive : 0 < slots.toNat)
    (reachable : (system slots count).Reachable state) :
    Invariant slots state := by
  refine reachable.invariant (Invariant slots) ?_ ?_
  · rintro first rfl
    exact .initial positive
  · intro before after _ invariant step
    exact invariant.step step

end Steps

/-- The thread is in one of its rounds. -/
def Place.begun : Place → Bool
  | .loop => false
  | _ => true

/-- No thread begins more rounds than it has items to hand over. -/
def Limit
    (count : Nat)
    (state : State) : Prop :=
  ∀ party, state.rounds party + (state.place party).begun.toNat ≤ count

section Limit

variable
    {slots : UInt32}
    {count : Nat}
    {state later : State}
    {party : Party}

/-- One thread moves in its loop. -/
theorem Limit.setPlace
    (limit : Limit count state)
    {place : Place}
    (enough : state.rounds party + place.begun.toNat ≤ count) :
    Limit count (state.setPlace party place) := by
  intro thread
  by_cases itself : thread = party
  · subst itself
    simpa [State.setPlace] using enough
  · simpa [State.setPlace, Function.update_of_ne itself] using limit thread

/-- A return ends a round at most. -/
theorem Limit.goOn
    (limit : Limit count state)
    (party : Party) :
    Limit count (state.goOn party) := by
  have enough := limit party
  cases here : state.place party with
  | waiting =>
      rw [State.goOn_waiting here]
      rw [here] at enough
      exact limit.setPlace enough
  | posting =>
      rw [State.goOn_posting here]
      rw [here] at enough
      intro thread
      by_cases itself : thread = party
      · subst itself
        simpa [State.setPlace, Place.begun] using enough
      · simpa [State.setPlace, Function.update_of_ne itself] using
          limit thread
  | _ =>
      simpa [State.goOn, here] using limit

/-- Every step stays within the limit. -/
theorem Limit.step
    (limit : Limit count state)
    (step : Next slots count state later) :
    Limit count later := by
  cases step with
  | callWait party pc here more starts =>
      exact Limit.setPlace (by exact limit) more
  | waitRefused party here more refused =>
      exact limit.setPlace more
  | produce here =>
      have enough := limit .producer
      rw [here] at enough
      exact limit.setPlace enough
  | consume here =>
      have enough := limit .consumer
      rw [here] at enough
      exact limit.setPlace enough
  | callPost party pc here starts =>
      have enough := limit party
      rw [here] at enough
      exact Limit.setPlace (by exact limit) enough
  | postRefused party here refused =>
      have enough := limit party
      rw [here] at enough
      have posting : Limit count (state.setPlace party .posting) :=
        limit.setPlace enough
      exact posting.goOn party
  | inside owner party sem step stays =>
      exact limit
  | returns owner party sem step leaves =>
      exact Limit.goOn (by exact limit) party
  | spurious owner party here =>
      exact limit

/-- The limit holds in every reachable state. -/
theorem limit_of_reachable
    (reachable : (system slots count).Reachable state) :
    Limit count state := by
  refine reachable.invariant (Limit count) ?_ ?_
  · rintro first rfl party
    exact Nat.zero_le count
  · intro before after _ limit step
    exact limit.step step

/-- Nor does it access the ring more often. -/
theorem Limit.accesses
    (limit : Limit count state)
    (party : Party) :
    state.accesses party ≤ count := by
  refine Nat.le_trans ?_ (limit party)
  unfold State.accesses
  cases state.place party <;> simp [Place.accessed, Place.begun]

end Limit

/-- The first numbers add up to what is well known. -/
theorem sum_range' (count : Nat) :
    (List.range' 1 count).sum = count * (count + 1) / 2 := by
  have twice :
      2 * (List.range' 1 count).sum = count * (count + 1) := by
    induction count with
    | zero =>
        rfl
    | succ count inductionHypothesis =>
        rw [List.range'_1_concat, List.sum_append, List.sum_singleton,
          Nat.mul_add, inductionHypothesis]
        ring
  rw [← twice, Nat.mul_div_cancel_left _ (Nat.succ_pos 1)]

/-- What the hand-off promises. -/
structure Delivers
    (slots : UInt32)
    (count : Nat)
    (state : State) : Prop where
  bound :
    state.counter .producer + state.counter .consumer ≤ slots.toNat
  kept :
    state.place .producer = .access →
    state.ring.unread state.ring.input = false
  fresh :
    state.place .consumer = .access →
    state.ring.unread state.ring.output = true
  inOrder :
    state.reads = List.range' 1 state.reads.length
  atMost :
    state.reads.length ≤ count
  everything :
    (∀ party, Finished count state party) →
    state.reads = List.range' 1 count
  total :
    (∀ party, Finished count state party) →
    (state.sum.Is (count * (count + 1) / 2 : Nat) ↔ count ≤ 65535)

section Delivery

variable
    {slots : UInt32}
    {count : Nat}
    {state : State}

/-- The producer overwrites nothing that is unread. -/
theorem Invariant.kept
    (invariant : Invariant slots state)
    (here : state.place .producer = .access) :
    state.ring.unread state.ring.input = false := by
  apply invariant.flow.queue.input_read
  exact invariant.flow.room invariant.tokens here

/-- The consumer reads nothing twice. -/
theorem Invariant.fresh
    (invariant : Invariant slots state)
    (here : state.place .consumer = .access) :
    state.ring.unread state.ring.output = true := by
  have item := invariant.tokens.item here
  have queue := invariant.flow.queue
  obtain ⟨more, shape⟩ := Nat.exists_eq_add_of_lt item
  rw [shape, Nat.add_assoc, Nat.add_sub_cancel_left, List.range'_succ]
    at queue
  exact queue.output_unread

/-- Whoever has finished has accessed the ring once for every item. -/
theorem Finished.accesses
    {party : Party}
    (finished : Finished count state party) :
    state.accesses party = count := by
  obtain ⟨place, rounds⟩ := finished
  rw [State.accesses, place, rounds]
  rfl

/-- The values that have been read are as many as the accesses of the consumer. -/
theorem Flow.length_reads
    (flow :
      Flow slots state.accesses state.ring state.reads state.sum) :
    state.reads.length = state.accesses .consumer := by
  rw [flow.inOrder, List.length_range']

/-- The sum of the first numbers is an `int` up to 65535 of them. -/
theorem represents_sum_range' (count : Nat) :
    IntType.int.Represents (List.range' 1 count).sum ↔ count ≤ 65535 := by
  rw [IntType.represents_int, sum_range']
  constructor
  · intro represents
    by_contra many
    have product : 65536 * 65537 ≤ count * (count + 1) :=
      Nat.mul_le_mul (by omega) (by omega)
    omega
  · intro few
    have product : count * (count + 1) ≤ 65535 * 65536 :=
      Nat.mul_le_mul few (Nat.succ_le_succ few)
    omega

/-- What the consumer has added up is exact as long as it has read that few. -/
theorem Flow.sum_is_iff
    (flow :
      Flow slots state.accesses state.ring state.reads state.sum) :
    state.sum.Is
        (state.accesses .consumer * (state.accesses .consumer + 1) / 2 :
          Nat) ↔
      state.accesses .consumer ≤ 65535 := by
  rw [flow.total, flow.inOrder, ← sum_range', CInt.total_is_iff,
    represents_sum_range']

/--
Two semaphores hand over every item once and in order, for any positive number
of slots and any number of items.  The `int` that the consumer adds up in holds
the sum of 65535 items, and of no more.
-/
theorem handOff_delivers
    (positive : 0 < slots.toNat)
    (reachable : (system slots count).Reachable state) :
    Delivers slots count state := by
  have invariant := invariant_of_reachable positive reachable
  have flow := invariant.flow
  have limit := limit_of_reachable reachable
  constructor
  · exact invariant.tokens.bound
  · exact invariant.kept
  · exact invariant.fresh
  · rw [flow.length_reads]
    exact flow.inOrder
  · rw [flow.length_reads]
    exact limit.accesses .consumer
  · intro finished
    rw [flow.inOrder, (finished .consumer).accesses]
  · intro finished
    have exactly := flow.sum_is_iff
    rwa [(finished .consumer).accesses] at exactly

end Delivery

/-- Three items go through two slots, and both threads leave their loops. -/
theorem handOff_delivers_three :
    ∃ state,
      (system 2 3).Reachable state ∧
        (∀ party, Finished 3 state party) ∧
        state.reads = [1, 2, 3] ∧
        state.sum.Is 6 ∧
        Delivers 2 3 state := by
  have begins :
      OutsideCalls (fun owner => syncSemInit (credit 2 owner))
        (fun _ => 0) (fun _ => .loop) (initial 2) :=
    ⟨fun _ => rfl, rfl, rfl, fun _ => rfl⟩
  have start : (system 2 3).Reachable (initial 2) := .start rfl
  obtain ⟨_, first, outside⟩ :=
    begins.turn start (by rintro ⟨⟩ <;> rfl) .producer rfl (by decide)
      (by decide)
  obtain ⟨_, second, outside⟩ :=
    outside.turn first (by rintro ⟨⟩ <;> rfl) .producer rfl (by decide)
      (by decide)
  obtain ⟨_, third, outside⟩ :=
    outside.turn second (by rintro ⟨⟩ <;> rfl) .consumer rfl (by decide)
      (by decide)
  obtain ⟨_, fourth, outside⟩ :=
    outside.turn third (by rintro ⟨⟩ <;> rfl) .producer rfl (by decide)
      (by decide)
  obtain ⟨_, fifth, outside⟩ :=
    outside.turn fourth (by rintro ⟨⟩ <;> rfl) .consumer rfl (by decide)
      (by decide)
  obtain ⟨state, reachable, outside⟩ :=
    outside.turn fifth (by rintro ⟨⟩ <;> rfl) .consumer rfl (by decide)
      (by decide)
  have finished : ∀ party, Finished 3 state party := by
    intro party
    constructor
    · rw [outside.place]
    · rw [outside.rounds]
      cases party <;> rfl
  have delivers := handOff_delivers (by decide) reachable
  exact ⟨state, reachable, finished, delivers.everything finished,
    (delivers.total finished).mpr (by decide), delivers⟩

/-- After 65536 items the consumer has not added up what it has read. -/
theorem handOff_overflows :
    ∃ state,
      (system 1 65536).Reachable state ∧
        (∀ party, Finished 65536 state party) ∧
        state.sum.value ≠ (65536 * (65536 + 1) / 2 : Nat) := by
  obtain ⟨state, reachable, finished⟩ :=
    exists_finished 1 (by decide) 65536
  refine ⟨state, reachable, finished, ?_⟩
  intro sum
  have represents := state.sum.represented
  rw [sum] at represents
  exact absurd represents (by decide)

end SThread.Sync.HandOff
