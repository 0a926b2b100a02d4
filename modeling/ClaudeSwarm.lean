import ClaudeSwarm.Sqlite.Exclusive
import ClaudeSwarm.Sqlite.Completed
import ClaudeSwarm.Sqlite.PriorityQueue
import ClaudeSwarm.RateLimiter
import ClaudeSwarm.Registry.Stale
import ClaudeSwarm.Registry.Redis
import ClaudeSwarm.Routing.Stuck
import ClaudeSwarm.TaskQueue.Exclusive
import ClaudeSwarm.TaskQueue.Matching
import ClaudeSwarm.TaskQueue.Sweep
import ClaudeSwarm.TaskQueue.Visible
import ClaudeSwarm.TaskQueue.FailingSave
import ClaudeSwarm.SwarmRedis.Index
import ClaudeSwarm.SwarmRedis.Meaning
import ClaudeSwarm.SwarmLib.Decomposition
import ClaudeSwarm.SwarmLib.Siblings
import ClaudeSwarm.Outage.Reconcile
import ClaudeSwarm.Outage.Fresh
import ClaudeSwarm.SwarmLib.Crash
import ClaudeSwarm.Gpu.Unique
import ClaudeSwarm.Gpu.Contention
import ClaudeSwarm.GpuSlots.Reservation
import ClaudeSwarm.GpuSlots.Format
import ClaudeSwarm.IpcBridge
import ClaudeSwarm.GpuEvents.View
import ClaudeSwarm.SwarmLib.Messages
import ClaudeSwarm.Ipc.Requeue
import ClaudeSwarm.Ipc.Mirror
import ClaudeSwarm.Hydra.Snapshots
import ClaudeSwarm.Hydra.Poll
import ClaudeSwarm.Cascade.Release
import ClaudeSwarm.Cascade.Exclusive
import ClaudeSwarm.AutoDispatch.Stranded
import ClaudeSwarm.AutoDispatch.Interrupt
import ClaudeSwarm.AutoDispatch.Rails
import ClaudeSwarm.AutoDispatch.Preemption
import ClaudeSwarm.Hydra.Resources
import ClaudeSwarm.Events.Emits
import ClaudeSwarm.Events.RedisBus
import ClaudeSwarm.Pipeline.Substitution
import ClaudeSwarm.Pipeline.Validated
import ClaudeSwarm.Pipeline.Success
import ClaudeSwarm.Pipeline.Retry
import ClaudeSwarm.Pipeline.Budget
import ClaudeSwarm.Cascade.Listing
import ClaudeSwarm.Cascade.Claims
import ClaudeSwarm.RemoteSession.Requeue
import ClaudeSwarm.DrainRestore.Live
import ClaudeSwarm.DrainRestore.Pages
import ClaudeSwarm.Collaborative.Kept
import ClaudeSwarm.SwarmSpecImpl.Peek
import ClaudeSwarm.Ipc.Responses
import ClaudeSwarm.Ipc.Projects
import ClaudeSwarm.Ipc.Presence
import ClaudeSwarm.CredentialBroker
import ClaudeSwarm.CircuitBreaker.Late
import ClaudeSwarm.Conflicts
import ClaudeSwarm.HealthMonitor.Cooldown
import ClaudeSwarm.Ipc.Sweep
import ClaudeSwarm.Ipc.Uuid
import ClaudeSwarm.PerformanceRating
import ClaudeSwarm.SwarmLib.FailedDecomposition
import ClaudeSwarm.TtlCache.Wrapper
import ClaudeSwarm.WorkGenerator.Preview
