import SThread.Library.Channel
import SThread.Scheduler.Ownership

namespace SThread.Scheduler

open SThread.Library

/-!
# The threads and the linked list implement a channel

The relation between the system of threads and an abstract channel: the chain
of nodes represents the contents of the channel, and what the threads hold in
their locals agrees with the heap and with the history of the channel.

Every step of a thread is one operation of the channel or none, and no step
dereferences a node that is not allocated.
-/

/-- The relation between the system of threads and the channel. -/
structure Refines
    {Thread Func Arg : Type}
    (state : State Thread Func Arg)
    (channel : Channel (Func × Arg))
    (nodes : List Addr) : Prop where
  represents :
    Represents state.heap state.queue nodes channel.contents
  lawful :
    channel.Lawful state.queue.capacity
  closed :
    channel.closed = state.queue.shutdown
  linked :
    channel.linked = state.linked
  removed :
    channel.removed = state.removed
  ownership :
    Ownership state.heap state.pc nodes
  supported :
    ∀ thread,
      Supported state.heap state.queue state.linked
        (state.pc thread)
  awake :
    state.queue.shutdown = true →
      ∀ thread, Awake (state.pc thread)

namespace Refines

variable
    {Thread Func Arg : Type}
    {state : State Thread Func Arg}
    {channel : Channel (Func × Arg)}
    {nodes : List Addr}

/-- A new queue refines a new channel. -/
theorem initial
    (capacity : Nat) :
    Refines (State.initial Thread Func Arg capacity)
      { capacity := capacity
        contents := []
        linked := []
        removed := []
        closed := false } [] where
  represents :=
    .init _ capacity
  lawful :=
    ⟨rfl, rfl, fun _ => Nat.zero_le _⟩
  closed :=
    rfl
  linked :=
    rfl
  removed :=
    rfl
  ownership := by
    refine ⟨?_, ?_, ?_, ?_⟩ <;>
      simp [State.initial, Pc.owned]
  supported := by
    intro thread
    trivial
  awake := by
    intro _ thread
    exact ⟨rfl, rfl⟩

/-- Threads may move as long as their nodes stay with them. -/
theorem repoint
    (refines : Refines state channel nodes)
    (pcs : Thread → Pc Func Arg)
    (owns :
      ∀ thread, (pcs thread).owned = (state.pc thread).owned)
    (supported :
      ∀ thread,
        Supported state.heap state.queue state.linked (pcs thread))
    (awake :
      state.queue.shutdown = true →
        ∀ thread, Awake (pcs thread)) :
    Refines { state with pc := pcs } channel nodes where
  represents :=
    refines.represents
  lawful :=
    refines.lawful
  closed :=
    refines.closed
  linked :=
    refines.linked
  removed :=
    refines.removed
  ownership :=
    refines.ownership.repoint owns
  supported :=
    supported
  awake :=
    awake

/-- One thread may move as long as its node stays with it. -/
theorem move
    [DecidableEq Thread]
    (refines : Refines state channel nodes)
    (thread : Thread)
    (pc : Pc Func Arg)
    (owns : pc.owned = (state.pc thread).owned)
    (supported :
      Supported state.heap state.queue state.linked pc)
    (awake : state.queue.shutdown = true → Awake pc) :
    Refines (state.setPc thread pc) channel nodes := by
  refine refines.repoint _ ?_ ?_ ?_
  · rw [Function.forall_update_iff state.pc
      (fun other here => here.owned = (state.pc other).owned)]
    exact ⟨owns, fun _ _ => rfl⟩
  · rw [Function.forall_update_iff state.pc
      (fun _ here =>
        Supported state.heap state.queue state.linked here)]
    exact ⟨supported, fun other _ => refines.supported other⟩
  · intro closed
    rw [Function.forall_update_iff state.pc (fun _ here => Awake here)]
    exact ⟨awake closed, fun other _ => refines.awake closed other⟩

/-- A signal on `not_empty` keeps the relation. -/
theorem notifyNotEmpty
    [DecidableEq Thread]
    (refines : Refines state channel nodes)
    {targets : Finset Thread}
    (signals : (notEmpty Func Arg).Signals state.pc targets) :
    Refines
      { state with
          pc := (notEmpty Func Arg).notify targets state.pc }
      channel nodes := by
  refine refines.repoint _ ?_ ?_ ?_
  · exact CondVar.notify_stable signals Pc.owned
      (wakeNotEmpty_stable _ rfl)
  · intro thread
    rw [CondVar.notify_stable signals
      (Supported state.heap state.queue state.linked)
      (wakeNotEmpty_stable _ rfl)]
    exact refines.supported thread
  · intro closed thread
    rw [CondVar.notify_of_awake signals (refines.awake closed thread).1]
    exact refines.awake closed thread

/-- A signal on `not_full` keeps the relation. -/
theorem notifyNotFull
    [DecidableEq Thread]
    (refines : Refines state channel nodes)
    {targets : Finset Thread}
    (signals : (notFull Func Arg).Signals state.pc targets) :
    Refines
      { state with
          pc := (notFull Func Arg).notify targets state.pc }
      channel nodes := by
  refine refines.repoint _ ?_ ?_ ?_
  · exact CondVar.notify_stable signals Pc.owned
      (wakeNotFull_stable _ (fun _ _ _ => rfl))
  · intro thread
    rw [CondVar.notify_stable signals
      (Supported state.heap state.queue state.linked)
      (wakeNotFull_stable _ (fun _ _ _ => rfl))]
    exact refines.supported thread
  · intro closed thread
    rw [CondVar.notify_of_awake signals (refines.awake closed thread).2]
    exact refines.awake closed thread

/-- A filled-in fresh node belongs to the thread that allocated it. -/
theorem alloc
    [DecidableEq Thread]
    (refines : Refines state channel nodes)
    {thread : Thread}
    {node : Addr}
    {record : TaskNode Func Arg}
    (unowned : (state.pc thread).owned = none)
    (fresh : state.heap node = none)
    (unlinked : record.next = none) :
    Refines
      { state with
          heap := Function.update state.heap node (some record)
          pc :=
            Function.update state.pc thread
              (.pushEnter record.func record.arg node) }
      channel nodes := by
  have outside : node ∉ nodes := by
    intro member
    obtain ⟨stored, here⟩ := refines.represents.allocated member
    rw [fresh] at here
    contradiction
  have unshared :
      ∀ other, (state.pc other).owned ≠ some node := by
    intro other owned
    obtain ⟨stored, here⟩ :=
      refines.ownership.allocated other node owned
    rw [fresh] at here
    contradiction
  have same :
      ∀ cell, cell ≠ node →
        Function.update state.heap node (some record) cell =
          state.heap cell :=
    fun cell different => Function.update_of_ne different _ _
  refine
    { represents := ?_
      lawful := refines.lawful
      closed := refines.closed
      linked := refines.linked
      removed := refines.removed
      ownership := ?_
      supported := ?_
      awake := ?_ }
  · apply refines.represents.congr
    intro cell member
    exact same cell (fun equal => outside (equal ▸ member))
  · exact refines.ownership.acquire unowned rfl
      (Function.update_self _ _ _) same unshared outside
      (fun _ _ => Iff.rfl)
  · rw [Function.forall_update_iff state.pc
      (fun _ here => Supported _ state.queue state.linked here)]
    refine ⟨⟨record, Function.update_self _ _ _,
      rfl, rfl, unlinked⟩, ?_⟩
    intro other _
    apply (refines.supported other).mono_heap
    · intro cell owned
      apply same
      intro equal
      exact unshared other (equal ▸ owned)
    · exact id
  · intro closed
    rw [Function.forall_update_iff state.pc (fun _ here => Awake here)]
    exact ⟨⟨rfl, rfl⟩, fun other _ => refines.awake closed other⟩

/-- Freeing the node a thread owns takes it out of the heap. -/
theorem free
    [DecidableEq Thread]
    (refines : Refines state channel nodes)
    {thread : Thread}
    {node : Addr}
    {pc : Pc Func Arg}
    (owned : (state.pc thread).owned = some node)
    (released : pc.owned = none)
    (supported :
      Supported state.heap state.queue state.linked pc)
    (awake : Awake pc) :
    Refines
      { state with
          heap := Function.update state.heap node none
          pc := Function.update state.pc thread pc }
      channel nodes := by
  have outside : node ∉ nodes :=
    refines.ownership.apart thread node owned
  have same :
      ∀ cell, cell ≠ node →
        Function.update state.heap node none cell =
          state.heap cell :=
    fun cell different => Function.update_of_ne different _ _
  refine
    { represents := ?_
      lawful := refines.lawful
      closed := refines.closed
      linked := refines.linked
      removed := refines.removed
      ownership := ?_
      supported := ?_
      awake := ?_ }
  · apply refines.represents.congr
    intro cell member
    exact same cell (fun equal => outside (equal ▸ member))
  · have gone :
        ¬ ∃ record,
          Function.update state.heap node none node =
            some record := by
      rw [Function.update_self]
      rintro ⟨record, stored⟩
      contradiction
    exact refines.ownership.release owned released
      (fun cell different => by simp only [same cell different])
      (fun stored => (gone stored).elim)
      (fun _ _ => Iff.rfl)
  · rw [Function.forall_update_iff state.pc
      (fun _ here => Supported _ state.queue state.linked here)]
    constructor
    · apply supported.mono_heap
      · intro cell pcOwned
        rw [released] at pcOwned
        contradiction
      · exact id
    · intro other notActor
      apply (refines.supported other).mono_heap
      · intro cell otherOwned
        apply same
        rintro rfl
        exact notActor
          (refines.ownership.distinct other thread cell
            otherOwned owned)
      · exact id
  · intro closed
    rw [Function.forall_update_iff state.pc (fun _ here => Awake here)]
    exact ⟨awake, fun other _ => refines.awake closed other⟩

/-- Linking a prepared node is the link operation of the channel. -/
theorem link
    [DecidableEq Thread]
    (refines : Refines state channel nodes)
    {thread : Thread}
    {func : Func}
    {arg : Arg}
    {node : Addr}
    {heap' : Heap Func Arg}
    {queue' : TaskQueue}
    (owned : (state.pc thread).owned = some node)
    (prepared : Prepared state.heap node func arg)
    (opened : state.queue.shutdown = false)
    (room : HasRoom state.queue)
    (links :
      linkNode state.heap state.queue node = some (heap', queue')) :
    Refines
      { state with
          heap := heap'
          queue := queue'
          pc := Function.update state.pc thread (.pushDone 0)
          linked := state.linked ++ [(func, arg)] }
      { channel with
          contents := channel.contents ++ [(func, arg)]
          linked := channel.linked ++ [(func, arg)] }
      (nodes ++ [node]) := by
  obtain ⟨record, stored, holdsFunc, holdsArg, unlinked⟩ := prepared
  have outside : node ∉ nodes :=
    refines.ownership.apart thread node owned
  obtain ⟨sameCapacity, sameShutdown, _⟩ := linkNode_settings links
  obtain ⟨heapAfter, queueAfter, result, represents, relinked⟩ :=
    linkNode_represents refines.represents stored unlinked outside
  rw [result] at links
  obtain ⟨rfl, rfl⟩ := Prod.mk.inj (Option.some.inj links)
  rw [holdsFunc, holdsArg] at represents
  have allocatedSame :
      ∀ cell,
        (∃ content, heapAfter cell = some content) ↔
          ∃ content, state.heap cell = some content := by
    intro cell
    have tasks := congrFun relinked.tasks cell
    simp only [payload] at tasks
    constructor
    · rintro ⟨content, here⟩
      rw [here] at tasks
      obtain ⟨before, here, _⟩ :=
        Option.map_eq_some_iff.mp tasks.symm
      exact ⟨before, here⟩
    · rintro ⟨content, here⟩
      rw [here] at tasks
      obtain ⟨after, here, _⟩ := Option.map_eq_some_iff.mp tasks
      exact ⟨after, here⟩
  have channelRoom : channel.HasRoom := by
    unfold Channel.HasRoom
    rw [refines.lawful.capacity_eq,
      refines.represents.contents_length]
    exact room
  have lawful :=
    refines.lawful.step
      (.link channel (func, arg)
        (refines.closed.trans opened) channelRoom)
  refine
    { represents := represents
      lawful := sameCapacity ▸ lawful
      closed := refines.closed.trans sameShutdown.symm
      linked := by rw [refines.linked]
      removed := refines.removed
      ownership := ?_
      supported := ?_
      awake := ?_ }
  · apply refines.ownership.release owned rfl
    · exact fun cell _ => allocatedSame cell
    · exact fun _ => by simp
    · intro cell different
      simp [different]
  · rw [Function.forall_update_iff state.pc
      (fun _ here => Supported heapAfter queueAfter _ here)]
    refine ⟨trivial, ?_⟩
    intro other notActor
    apply (refines.supported other).mono
    · intro cell otherOwned
      exact relinked.outside cell
        (refines.ownership.apart other cell otherOwned)
    · rintro ⟨closed, _⟩
      rw [opened] at closed
      exact Bool.noConfusion closed
  · intro closed
    rw [show queueAfter.shutdown = false from
      sameShutdown.trans opened] at closed
    exact Bool.noConfusion closed

/-- Unlinking the head is the remove operation of the channel. -/
theorem unlink
    [DecidableEq Thread]
    (refines : Refines state channel nodes)
    {thread : Thread}
    (kind : PopKind)
    {node : Addr}
    {record : TaskNode Func Arg}
    {queue' : TaskQueue}
    (unowned : (state.pc thread).owned = none)
    (nonempty : state.queue.count ≠ 0)
    (unlinks :
      unlinkHead state.heap state.queue = some (node, queue'))
    (stored : state.heap node = some record) :
    ∃ rest tasks,
      nodes = node :: rest ∧
        channel.contents = (record.func, record.arg) :: tasks ∧
        Refines
          { state with
              queue := queue'
              pc :=
                Function.update state.pc thread
                  (.popTake kind node
                    ⟨state.removed.length,
                      record.func, record.arg⟩)
              removed :=
                state.removed ++ [(record.func, record.arg)] }
          { channel with
              contents := tasks
              removed :=
                channel.removed ++ [(record.func, record.arg)] }
          rest := by
  obtain ⟨sameCapacity, sameShutdown, _⟩ :=
    unlinkHead_settings unlinks
  obtain ⟨head, rest, task, tasks, queueAfter, nodesShape,
      contentsShape, headTask, result, represents⟩ :=
    unlinkHead_represents refines.represents nonempty
  rw [result] at unlinks
  obtain ⟨rfl, rfl⟩ := Prod.mk.inj (Option.some.inj unlinks)
  have taskIs : (record.func, record.arg) = task := by
    rw [payload, stored] at headTask
    exact Option.some.inj headTask
  subst taskIs
  have noRepeat : (head :: rest).Nodup :=
    nodesShape ▸ refines.represents.chain.nodup
  have outside : head ∉ rest := (List.nodup_cons.mp noRepeat).1
  have unshared :
      ∀ other, (state.pc other).owned ≠ some head := by
    intro other owned
    apply refines.ownership.apart other head owned
    rw [nodesShape]
    exact List.mem_cons_self
  have lawful :=
    refines.lawful.step
      (.remove channel (record.func, record.arg) tasks contentsShape)
  have history :
      state.linked[state.removed.length]? =
        some (record.func, record.arg) := by
    rw [← refines.linked, ← refines.removed, refines.lawful.order,
      contentsShape, List.getElem?_append_right (Nat.le_refl _),
      Nat.sub_self]
    rfl
  refine ⟨rest, tasks, nodesShape, contentsShape, ?_⟩
  refine
    { represents := represents
      lawful := sameCapacity ▸ lawful
      closed := refines.closed.trans sameShutdown.symm
      linked := refines.linked
      removed := by rw [refines.removed]
      ownership := ?_
      supported := ?_
      awake := ?_ }
  · apply refines.ownership.acquire unowned rfl stored
      (fun _ _ => rfl) unshared outside
    intro cell different
    simp [nodesShape, different]
  · rw [Function.forall_update_iff state.pc
      (fun _ here =>
        Supported state.heap queueAfter state.linked here)]
    refine ⟨⟨headTask, history⟩, ?_⟩
    intro other _
    apply (refines.supported other).mono_heap (fun _ _ => rfl)
    rintro ⟨_, empty⟩
    exact (nonempty empty).elim
  · intro closed
    rw [Function.forall_update_iff state.pc (fun _ here => Awake here)]
    exact ⟨⟨rfl, rfl⟩, fun other _ =>
      refines.awake (sameShutdown.symm.trans closed) other⟩

/-- Shutting the queue down is the close operation of the channel. -/
theorem shutdown
    [DecidableEq Thread]
    (refines : Refines state channel nodes)
    {thread : Thread}
    (here : state.pc thread = .shutdownEnter) :
    Refines
      { state with
          queue := { state.queue with shutdown := true }
          pc :=
            (notFull Func Arg).broadcast
              ((notEmpty Func Arg).broadcast
                (Function.update state.pc thread .shutdownDone)) }
      { channel with closed := true } nodes := by
  have updated :
      ∀ other,
        (Function.update state.pc thread .shutdownDone other).owned =
          (state.pc other).owned := by
    rw [Function.forall_update_iff state.pc
      (fun other place => place.owned = (state.pc other).owned)]
    exact ⟨by rw [here]; rfl, fun _ _ => rfl⟩
  refine
    { represents := refines.represents.congr_queue rfl rfl rfl
      lawful := refines.lawful.step (.close channel)
      closed := rfl
      linked := refines.linked
      removed := refines.removed
      ownership := ?_
      supported := ?_
      awake := ?_ }
  · apply refines.ownership.repoint
    intro other
    rw [CondVar.broadcast_stable Pc.owned
        (wakeNotFull_stable _ (fun _ _ _ => rfl)),
      CondVar.broadcast_stable Pc.owned
        (wakeNotEmpty_stable _ rfl),
      updated other]
  · intro other
    rw [CondVar.broadcast_stable
        (Supported state.heap _ state.linked)
        (wakeNotFull_stable _ (fun _ _ _ => rfl)),
      CondVar.broadcast_stable
        (Supported state.heap _ state.linked)
        (wakeNotEmpty_stable _ rfl)]
    revert other
    rw [Function.forall_update_iff state.pc
      (fun _ place => Supported state.heap _ state.linked place)]
    refine ⟨trivial, ?_⟩
    intro other _
    exact (refines.supported other).mono_heap (fun _ _ => rfl)
      (fun drained => ⟨rfl, drained.2⟩)
  · intro _ other
    refine ⟨?_, CondVar.broadcast_awake (notFull Func Arg) _ other⟩
    rw [CondVar.broadcast_stable Pc.asleepNotEmpty
      (wakeNotFull_stable _ (fun _ _ _ => rfl))]
    exact CondVar.broadcast_awake (notEmpty Func Arg) _ other

end Refines

/-- A thread that takes the lock to push still has its prepared node. -/
theorem PushSection.prepared
    {Func Arg : Type}
    {heap heap' : Heap Func Arg}
    {queue queue' : TaskQueue}
    {linked : List (Func × Arg)}
    {pc : Pc Func Arg}
    {func : Func}
    {arg : Arg}
    {node : Addr}
    {exit : PushExit Func Arg}
    (locked : PushSection heap' queue' pc func arg node exit)
    (supported : Supported heap queue linked pc) :
    Prepared heap node func arg := by
  cases locked with
  | enter =>
      exact supported
  | resume =>
      exact supported

/-- Returning from a call leaves no node behind. -/
theorem Pc.owned_of_returned
    {Func Arg : Type}
    {pc : Pc Func Arg}
    (returned : pc.returned = true) :
    pc.owned = none := by
  cases pc <;> simp [Pc.returned, Pc.owned] at returned ⊢

/-- A call starts without a node, awake, and with nothing to support. -/
theorem Request.start_spec
    {Func Arg : Type}
    (request : Request Func Arg)
    (heap : Heap Func Arg)
    (queue : TaskQueue)
    (linked : List (Func × Arg)) :
    request.start.owned = none ∧
      Awake request.start ∧
      Supported heap queue linked request.start := by
  cases request with
  | push func arg priority =>
      cases func <;> exact ⟨rfl, ⟨rfl, rfl⟩, trivial⟩
  | pop kind outputs =>
      cases outputs <;> exact ⟨rfl, ⟨rfl, rfl⟩, trivial⟩
  | shutdown =>
      exact ⟨rfl, ⟨rfl, rfl⟩, trivial⟩

section Simulation

variable
    {Thread Func Arg : Type}
    [DecidableEq Thread]
    {state later : State Thread Func Arg}
    {channel : Channel (Func × Arg)}
    {nodes : List Addr}

/-- Every step inside a call is one channel operation or none. -/
theorem Step.refines
    {thread : Thread}
    (step : Step state thread later)
    (refines : Refines state channel nodes) :
    ∃ channel' nodes',
      Relation.ReflGen Channel.Step channel channel' ∧
        Refines later channel' nodes' := by
  cases step with
  | alloc func arg priority node submitTime here fresh =>
      refine ⟨channel, nodes, .refl, ?_⟩
      exact refines.alloc (by rw [here]; rfl) fresh rfl
  | allocFailed func arg priority here =>
      refine ⟨channel, nodes, .refl, ?_⟩
      exact refines.move thread (.pushDone (-1))
        (by rw [here]; rfl) trivial (fun _ => ⟨rfl, rfl⟩)
  | pushRefused func arg node locked =>
      refine ⟨channel, nodes, .refl, ?_⟩
      exact refines.move thread (.pushFree node)
        locked.owned.symm trivial (fun _ => ⟨rfl, rfl⟩)
  | pushSleeps func arg node locked =>
      refine ⟨channel, nodes, .refl, ?_⟩
      refine refines.move thread (.pushWait func arg node .asleep)
        locked.owned.symm
        (locked.prepared (refines.supported thread)) ?_
      intro closed
      rw [locked.justified.1] at closed
      exact Bool.noConfusion closed
  | pushLinked func arg node heap queue targets locked signals =>
      obtain ⟨opened, room, links⟩ := locked.justified
      have linked :=
        refines.link locked.owned
          (locked.prepared (refines.supported thread))
          opened room links
      refine ⟨_, _, .single ?_, linked.notifyNotEmpty signals⟩
      refine .link channel (func, arg)
        (refines.closed.trans opened) ?_
      unfold Channel.HasRoom
      rw [refines.lawful.capacity_eq,
        refines.represents.contents_length]
      exact room
  | pushFault func arg node locked =>
      obtain ⟨record, stored, _, _, unlinked⟩ :=
        locked.prepared (refines.supported thread)
      obtain ⟨_, _, result, _⟩ :=
        linkNode_represents refines.represents stored unlinked
          (refines.ownership.apart thread node locked.owned)
      have missing : linkNode state.heap state.queue node = none :=
        locked.justified
      rw [missing] at result
      contradiction
  | pushFreed node record here stored =>
      refine ⟨channel, nodes, .refl, ?_⟩
      exact refines.free (by rw [here]; rfl) rfl trivial ⟨rfl, rfl⟩
  | pushFreeFault node here missing =>
      obtain ⟨record, stored⟩ :=
        refines.ownership.allocated thread node (by rw [here]; rfl)
      rw [missing] at stored
      contradiction
  | popEmpty kind locked =>
      refine ⟨channel, nodes, .refl, ?_⟩
      refine refines.move thread (.popDone kind none)
        locked.owned.symm ?_ (fun _ => ⟨rfl, rfl⟩)
      obtain ⟨empty, closed⟩ := locked.justified
      cases kind with
      | pop =>
          exact ⟨closed rfl, empty⟩
      | tryPop =>
          trivial
  | popSleeps kind locked =>
      refine ⟨channel, nodes, .refl, ?_⟩
      refine refines.move thread (.popWait .asleep)
        locked.owned.symm trivial ?_
      intro closed
      rw [locked.justified.2.2] at closed
      exact Bool.noConfusion closed
  | popUnlinked kind node record queue targets locked stored signals =>
      obtain ⟨nonempty, unlinks⟩ := locked.justified
      obtain ⟨rest, tasks, _, front, unlinked⟩ :=
        refines.unlink kind locked.owned nonempty unlinks stored
      refine ⟨_, rest,
        .single (.remove channel _ tasks front), ?_⟩
      by_cases bounded : state.queue.capacity > 0
      · rw [if_pos bounded] at signals
        exact unlinked.notifyNotFull signals
      · rw [if_neg bounded] at signals
        subst signals
        rw [CondVar.notify_empty]
        exact unlinked
  | popFault kind locked =>
      obtain ⟨nonempty, missing⟩ := locked.justified
      obtain ⟨_, _, _, _, _, _, _, _, result, _⟩ :=
        unlinkHead_represents refines.represents nonempty
      rw [missing] at result
      contradiction
  | popTaken kind node removal record here stored =>
      refine ⟨channel, nodes, .refl, ?_⟩
      have supported := refines.supported thread
      rw [here] at supported
      have taskIs : (record.func, record.arg) = removal.task := by
        have task := supported.1
        rw [payload, stored] at task
        exact Option.some.inj task
      refine refines.free (by rw [here]; rfl) rfl ?_ ⟨rfl, rfl⟩
      exact supported.2.trans (congrArg some taskIs.symm)
  | popTakeFault kind node removal here missing =>
      obtain ⟨record, stored⟩ :=
        refines.ownership.allocated thread node (by rw [here]; rfl)
      rw [missing] at stored
      contradiction
  | shutdown here =>
      exact ⟨_, nodes, .single (.close channel),
        refines.shutdown here⟩

/-- Every step of the system is one channel operation or none. -/
theorem Next.refines
    (next : Next state later)
    (refines : Refines state channel nodes) :
    ∃ channel' nodes',
      Relation.ReflGen Channel.Step channel channel' ∧
        Refines later channel' nodes' := by
  cases next with
  | call thread request here =>
      refine ⟨channel, nodes, .refl, ?_⟩
      obtain ⟨unowned, awake, supported⟩ :=
        request.start_spec state.heap state.queue state.linked
      exact refines.move thread request.start
        (by rw [unowned, here]; rfl) supported (fun _ => awake)
  | step thread step =>
      exact step.refines refines
  | @spurious thread pc wakes =>
      refine ⟨channel, nodes, .refl, ?_⟩
      have supported := refines.supported thread
      rcases Pc.spurious_cases wakes with
        ⟨func, arg, node, shape, rfl⟩ | ⟨shape, rfl⟩
      · rw [shape] at supported
        exact refines.move thread _ (by rw [shape]; rfl)
          supported (fun _ => ⟨rfl, rfl⟩)
      · exact refines.move thread _ (by rw [shape]; rfl)
          trivial (fun _ => ⟨rfl, rfl⟩)
  | ret thread here =>
      refine ⟨channel, nodes, .refl, ?_⟩
      exact refines.move thread .idle
        (Pc.owned_of_returned here).symm trivial
        (fun _ => ⟨rfl, rfl⟩)

/-- The threads on the queue simulate the bounded channel. -/
theorem simulates_channel
    (Thread Func Arg : Type)
    [DecidableEq Thread]
    (capacity : Nat) :
    Simulation
      (system Thread Func Arg capacity)
      (Channel.system (Func × Arg) capacity)
      (fun state channel => ∃ nodes, Refines state channel nodes)
    where
  init := by
    rintro first rfl
    exact ⟨_, rfl, [], .initial capacity⟩
  next := by
    rintro before after channel ⟨nodes, refines⟩ step
    obtain ⟨channel', nodes', operation, refines'⟩ :=
      Next.refines step refines
    exact ⟨channel', operation.to_reflTransGen, nodes', refines'⟩

/-- Every reachable state of the threads refines a reachable channel. -/
theorem reachable_refines
    {capacity : Nat}
    (reachable : (system Thread Func Arg capacity).Reachable state) :
    ∃ channel nodes,
      (Channel.system (Func × Arg) capacity).Reachable channel ∧
        Refines state channel nodes := by
  obtain ⟨channel, channelReachable, nodes, refines⟩ :=
    (simulates_channel Thread Func Arg capacity).reachable reachable
  exact ⟨channel, nodes, channelReachable, refines⟩

end Simulation

end SThread.Scheduler
