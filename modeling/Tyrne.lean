import Tyrne.Lib.Effect
import Tyrne.Lib.LinkedList
import Tyrne.Lib.SiblingForest
import Tyrne.Lib.Runs
import Tyrne.Cap
import Tyrne.CapSpace
import Tyrne.CapTable
import Tyrne.CapTableView
import Tyrne.CapTableInvariant
import Tyrne.CapTableRevoke
import Tyrne.CapTableRun
import Tyrne.CapTableExhaustion
import Tyrne.CapTableRemoval
import Tyrne.CapTableUndo
import Tyrne.CapSpaceHistory
import Tyrne.CapTableHistory
import Tyrne.ObjArena
import Tyrne.ArenaHistory
import Tyrne.Ipc
import Tyrne.IpcStep
import Tyrne.System
import Tyrne.Delivery
import Tyrne.Conservation
import Tyrne.EndpointMachine
import Tyrne.Independence
import Tyrne.Incarnations
import Tyrne.Authority
import Tyrne.Unreachable
import Tyrne.Lib.Ring
import Tyrne.Lib.Fifo
import Tyrne.Lib.Ledger
import Tyrne.Lib.Provenance
import Tyrne.SchedQueue
import Tyrne.Scheduler
import Tyrne.Roster
import Tyrne.SchedStep
import Tyrne.Bridge
import Tyrne.Accounting
import Tyrne.Exchange
import Tyrne.WakeUp
import Tyrne.Waiters
import Tyrne.Reservation
import Tyrne.IdleTask
import Tyrne.Dispatch
import Tyrne.Lib.ByteMemory
import Tyrne.Aarch64
import Tyrne.SwitchWindow
import Tyrne.ContextIntegrity
import Tyrne.Lib.Rescale
import Tyrne.Timer
import Tyrne.Deadline
import Tyrne.OneShot
import Tyrne.Trampoline
import Tyrne.SlotAllocators
import Tyrne.ErrorReturns
import Tyrne.Lib.Accumulate
import Tyrne.Signals
import Tyrne.SignalWord
import Tyrne.SchedQueueRun
import Tyrne.Lib.Saturating
import Tyrne.Lib.Overwrite
import Tyrne.Gic
import Tyrne.GicInit
import Tyrne.EnableSet
import Tyrne.Lib.Stepping
import Tyrne.Boot
import Tyrne.KernelEntry
import Tyrne.Returns
import Tyrne.Channel
import Tyrne.Demo
import Tyrne.DemoCourse
import Tyrne.Lib.Outlets
import Tyrne.Console
import Tyrne.Lib.Guards
import Tyrne.CriticalSection
import Tyrne.InterruptMask
import Tyrne.Stranded
import Tyrne.Vectors
import Tyrne.Panic
import Tyrne.Interrupts
import Tyrne.InterruptRun
import Tyrne.TimerDouble
import Tyrne.IrqDouble
import Tyrne.DemoOnBoard
import Tyrne.Lib.Lockstep
import Tyrne.BoardTimer
import Tyrne.BoardOneShot
import Tyrne.Portable
import Tyrne.RosterMachine
import Tyrne.Mmu
import Tyrne.MmuDouble
