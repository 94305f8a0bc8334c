import PrjOS.Library.LinkedQueue
import PrjOS.Library.PoolLinks
import PrjOS.Library.TailedQueue
import PrjOS.Library.Fifo
import PrjOS.Library.Memory
import PrjOS.Library.Transition
import PrjOS.Library.CortexM
import PrjOS.Library.Bytes
import PrjOS.Library.FirstIndex
import PrjOS.Library.Ledger
import PrjOS.Task
import PrjOS.KernelData
import PrjOS.Scheduler
import PrjOS.ReadyLists
import PrjOS.Syscall.Messages
import PrjOS.Syscall.Events
import PrjOS.Syscall.Calls
import PrjOS.TaskTable
import PrjOS.RtosMain
import PrjOS.History
import PrjOS.SyscallEffect
import PrjOS.KernelPass
import PrjOS.Invariants.SendQueues
import PrjOS.Invariants.Changes
import PrjOS.Invariants.EventLinks
import PrjOS.Invariants.Kernel
import PrjOS.KernelActions
import PrjOS.Invariants.EventPool
import PrjOS.Invariants.Priorities
import PrjOS.Invariants.ReadyQueues
import PrjOS.Properties.Completion
import PrjOS.Properties.Stranding
import PrjOS.Properties.Priorities
import PrjOS.Properties.Scheduling
import PrjOS.Properties.SendReceive
import PrjOS.Properties.Delivery
import PrjOS.Properties.Blocking
import PrjOS.Properties.EventWaiting
import PrjOS.Cpu.ContextSwitch
import PrjOS.Cpu.Context
import PrjOS.Cpu.Execution
import PrjOS.Properties.ContextSwitch
import PrjOS.Properties.FloatingPoint
import PrjOS.Properties.FifoLists
import PrjOS.Properties.StackPartition
import PrjOS.Properties.StaleIds
import PrjOS.BaseTasks.Nameserver
import PrjOS.Properties.NameserverMap
import PrjOS.Syscall.NameService
import PrjOS.Properties.NameService
import PrjOS.Library.Program
import PrjOS.Library.Rendezvous
import PrjOS.Library.Handshake
import PrjOS.BaseTasks.Calls
import PrjOS.Syscall.Serial
import PrjOS.BaseTasks.SerialDriver
import PrjOS.Cli.SerialUI
import PrjOS.Cli.CommandExecutor
import PrjOS.Properties.ReplyDiscipline
import PrjOS.Properties.OutputRoundTrip
import PrjOS.BaseTasks.Contracts
import PrjOS.Properties.InputPipeline
import PrjOS.Properties.InputWakeup
import PrjOS.BaseTasks.StartUp
import PrjOS.Properties.DeadlockFreedom
import PrjOS.Properties.NameserverRefusal
import PrjOS.Properties.FailingCalls
import PrjOS.Properties.ReplyResult
import PrjOS.Properties.Truncation
import PrjOS.Properties.CharacterReaders
import PrjOS.Properties.StaleBytes
import PrjOS.Properties.LineEditor
import PrjOS.Properties.TimeAccounting
import PrjOS.Bwio
import PrjOS.Properties.NumberFormat
import PrjOS.Properties.Formats
import PrjOS.Properties.FormatArguments
import PrjOS.Library.Tokens
import PrjOS.Library.Registry
import PrjOS.Cli.BaseCli
import PrjOS.Cli.Commands
import PrjOS.Properties.CommandTree
import PrjOS.Properties.CommandOutput
import PrjOS.Properties.CommandRegistration
import PrjOS.Properties.Shell
import PrjOS.Properties.CommandLoop
import PrjOS.Properties.CommandArguments
import PrjOS.Library.Overtaking
import PrjOS.Properties.Fairness
import PrjOS.Properties.Progress
import PrjOS.Invariants.PendingCalls
import PrjOS.Properties.Confinement
import PrjOS.Library.Refinement
import PrjOS.Library.Clients
import PrjOS.KernelModel
import PrjOS.Properties.KernelRefinement
