import EdgeRuntime.Verified.Machine
import EdgeRuntime.Verified.KeyedSet
import EdgeRuntime.Verified.SortedSearch
import EdgeRuntime.Verified.Fallible
import EdgeRuntime.Verified.Paths
import EdgeRuntime.Verified.Bytes
import EdgeRuntime.Verified.Table
import EdgeRuntime.Verified.Parser
import EdgeRuntime.Pool.Registry
import EdgeRuntime.Pool.WorkerPool
import EdgeRuntime.Pool.Consistency
import EdgeRuntime.Pool.Lifecycle
import EdgeRuntime.Pool.Exclusivity
import EdgeRuntime.Pool.Notify
import EdgeRuntime.Pool.RoundRobin
import EdgeRuntime.Pool.ActiveWorker
import EdgeRuntime.Supervisor.PerRequest
import EdgeRuntime.Supervisor.CpuBudget
import EdgeRuntime.Vfs.File
import EdgeRuntime.Vfs.Builder
import EdgeRuntime.Vfs.Lookup
import EdgeRuntime.Vfs.RoundTrip
import EdgeRuntime.Vfs.Served
import EdgeRuntime.Vfs.FileBacked
import EdgeRuntime.Vfs.FileSystem
import EdgeRuntime.Server.Accounting
import EdgeRuntime.Server.HeaderTimeout
import EdgeRuntime.Server.IdleTimeout
import EdgeRuntime.Core.ExternalMemory
import EdgeRuntime.Core.MemCheck
import EdgeRuntime.Core.Permissions
import EdgeRuntime.Static.Files
import EdgeRuntime.Eszip.Migrate
import EdgeRuntime.Eszip.Bundle
import EdgeRuntime.Eszip.DataSection
import EdgeRuntime.Eszip.Layout
import EdgeRuntime.Eszip.Loading
import EdgeRuntime.Eszip.ReadAll
import EdgeRuntime.Eszip.LazyRun
import EdgeRuntime.Eszip.Agreement
import EdgeRuntime.Eszip.Header
import EdgeRuntime.Eszip.Lookup
import EdgeRuntime.Eszip.Extract
import EdgeRuntime.Loader.Standalone
import EdgeRuntime.Eszip.Standalone
