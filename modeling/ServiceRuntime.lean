import ServiceRuntime.Foundation.Transition
import ServiceRuntime.Foundation.Pool
import ServiceRuntime.Foundation.Simulation
import ServiceRuntime.Foundation.SpinLock
import ServiceRuntime.Foundation.Monitor
import ServiceRuntime.Foundation.Ring
import ServiceRuntime.Message
import ServiceRuntime.Mailbox.Ring
import ServiceRuntime.Mailbox.Producers
import ServiceRuntime.Lua.Dispatcher
import ServiceRuntime.Lua.Moves
import ServiceRuntime.Service.Calls
import ServiceRuntime.Service.CallMoves
import ServiceRuntime.Service.Thread
import ServiceRuntime.Service.Inbox
import ServiceRuntime.Service.Pins
import ServiceRuntime.Service.Lifecycle
import ServiceRuntime.Service.Wakeup
import ServiceRuntime.Lua.Custody
import ServiceRuntime.Service.StopReplies
import ServiceRuntime.Service.Threadless
import ServiceRuntime.Service.Joining
import ServiceRuntime.Pool.Deletion
import ServiceRuntime.Network.System
import ServiceRuntime.Network.Moves
import ServiceRuntime.Network.Wiring
import ServiceRuntime.Service.Letters
import ServiceRuntime.Service.Aftermath
import ServiceRuntime.Network.Payloads
import ServiceRuntime.Lua.Coroutines
import ServiceRuntime.Service.Coroutines
import ServiceRuntime.Network.Ledger
import ServiceRuntime.Service.Sessions
import ServiceRuntime.Network.Books
import ServiceRuntime.Network.Calls
import ServiceRuntime.Network.Matching
import ServiceRuntime.Service.Stops
import ServiceRuntime.Service.Waits
import ServiceRuntime.Service.Control
import ServiceRuntime.Service.History
import ServiceRuntime.Service.Lifetime
import ServiceRuntime.Service.Starting
import ServiceRuntime.Service.Bootstrap
import ServiceRuntime.Service.Waiting
import ServiceRuntime.Lua.Returning
import ServiceRuntime.Service.Settling
import ServiceRuntime.Service.Progress
import ServiceRuntime.Foundation.EventLoop
import ServiceRuntime.Service.Teardown
import ServiceRuntime.Service.Ending
import ServiceRuntime.Pool.Registry
import ServiceRuntime.Pool.Targets
import ServiceRuntime.Lua.Guard
import ServiceRuntime.Foundation.Heap
import ServiceRuntime.Scheduler.Machine
import ServiceRuntime.Scheduler.Queue
import ServiceRuntime.Scheduler.Execution
import ServiceRuntime.Scheduler.Wakeups
import ServiceRuntime.Foundation.Bytes
import ServiceRuntime.Seri.Values
import ServiceRuntime.Foundation.Cycle
import ServiceRuntime.Lua.Allocation
import ServiceRuntime.Lua.IdleHooks
import ServiceRuntime.Service.Allocations
import ServiceRuntime.Foundation.HeapPlaces
import ServiceRuntime.Scheduler.TaskHeap
import ServiceRuntime.Foundation.Gregorian
import ServiceRuntime.Foundation.Text
import ServiceRuntime.Scheduler.Survival
import ServiceRuntime.Scheduler.Timestamp
import ServiceRuntime.Scheduler.Daily
import ServiceRuntime.Scheduler.Undo
import ServiceRuntime.Log.Emit
import ServiceRuntime.Log.Priority
import ServiceRuntime.Foundation.Raising
import ServiceRuntime.Foundation.Doubling
import ServiceRuntime.Mailbox.Overload
import ServiceRuntime.Mailbox.Statements
import ServiceRuntime.Seri.Unpacker
import ServiceRuntime.Seri.Safety
import ServiceRuntime.Seri.Blocks
import ServiceRuntime.Seri.References
import ServiceRuntime.Seri.Packer
import ServiceRuntime.Seri.Tokens
import ServiceRuntime.Seri.Encoding
import ServiceRuntime.Seri.Release
import ServiceRuntime.Seri.Walk
import ServiceRuntime.Scheduler.CivilDays
import ServiceRuntime.Mailbox.Batches
import ServiceRuntime.Pool.Refusals
import ServiceRuntime.Seri.Chunks
import ServiceRuntime.Seri.Exploration
import ServiceRuntime.Seri.Reading
import ServiceRuntime.Seri.Ancestors
import ServiceRuntime.Seri.RoundTrip
import ServiceRuntime.Seri.Delivery
import ServiceRuntime.Service.Disposal
import ServiceRuntime.Service.Order
import ServiceRuntime.Network.Order
import ServiceRuntime.Seri.Survey
import ServiceRuntime.Seri.Acceptance
import ServiceRuntime.Mailbox.Growth
