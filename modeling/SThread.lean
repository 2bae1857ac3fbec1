import SThread.Api.ErrorChecking
import SThread.Api.Errors
import SThread.Api.Handles
import SThread.Api.Submit
import SThread.Api.ThreadLifeCycle
import SThread.Api.Threads
import SThread.Examples.BoundedBuffer
import SThread.Examples.BoundedBufferEnds
import SThread.Examples.BoundedBufferFlow
import SThread.Examples.BoundedBufferMoves
import SThread.Examples.BoundedBufferOrder
import SThread.Examples.BoundedBufferRuns
import SThread.Examples.BoundedBufferWork
import SThread.Examples.Counters
import SThread.Examples.MatrixMultiply
import SThread.Examples.MutexCounter
import SThread.Library.CInt
import SThread.Library.Chain
import SThread.Library.Channel
import SThread.Library.CondVar
import SThread.Library.CriticalSections
import SThread.Library.Interleaving
import SThread.Library.Machine
import SThread.Library.Region
import SThread.Library.RingBuffer
import SThread.Library.Tally
import SThread.Library.Transition
import SThread.Library.Words
import SThread.Memory.Bounds
import SThread.Memory.FreeList
import SThread.Memory.MemoryPool
import SThread.Memory.Soundness
import SThread.Memory.StackAlloc
import SThread.Memory.System
import SThread.Platform.Clock
import SThread.Platform.GuardedMemory
import SThread.Scheduler.AbstractQueue
import SThread.Scheduler.Backpressure
import SThread.Scheduler.Effect
import SThread.Scheduler.Fifo
import SThread.Scheduler.Nodes
import SThread.Scheduler.Ownership
import SThread.Scheduler.Progress
import SThread.Scheduler.Refinement
import SThread.Scheduler.Sections
import SThread.Scheduler.System
import SThread.Scheduler.TaskQueue
import SThread.Scheduler.Wakeup
import SThread.Sync.Exclusion
import SThread.Sync.HandOff
import SThread.Sync.HandOffDelivery
import SThread.Sync.HandOffRuns
import SThread.Sync.HandOffTokens
import SThread.Sync.Objects
import SThread.Sync.SemWakeup
import SThread.Sync.Semaphore
import SThread.Sync.Timedwait
import SThread.Sync.Tokens
import SThread.ThreadPool.Accounting
import SThread.ThreadPool.Accounts
import SThread.ThreadPool.AllOrNothing
import SThread.ThreadPool.CallsReturn
import SThread.ThreadPool.Core
import SThread.ThreadPool.Create
import SThread.ThreadPool.CreateAccount
import SThread.ThreadPool.CreateInvariant
import SThread.ThreadPool.CreateProgress
import SThread.ThreadPool.DestroySteps
import SThread.ThreadPool.ExactlyOnce
import SThread.ThreadPool.ForkJoin
import SThread.ThreadPool.Ledger
import SThread.ThreadPool.LockedProgress
import SThread.ThreadPool.LockedTasks
import SThread.ThreadPool.OneWorker
import SThread.ThreadPool.Places
import SThread.ThreadPool.Pool
import SThread.ThreadPool.Quiescence
import SThread.ThreadPool.Settling
import SThread.ThreadPool.Shutdown
import SThread.ThreadPool.Starvation
import SThread.ThreadPool.TaskMemory
import SThread.ThreadPool.TaskRuns
import SThread.ThreadPool.Teardown
import SThread.ThreadPool.Turns
import SThread.ThreadPool.Vacancy
import SThread.ThreadPool.WaitReturn
import SThread.ThreadPool.Waiters
import SThread.ThreadPool.Wedge
