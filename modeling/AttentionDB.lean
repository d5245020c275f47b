import AttentionDB.Lib.GuardedRuns
import AttentionDB.Lib.ByteMap
import AttentionDB.Core.Types
import AttentionDB.Index.ConcurrentHashMap
import AttentionDB.Lib.ListSums
import AttentionDB.Memory.SlabAllocator
import AttentionDB.Lib.Intervals
import AttentionDB.Memory.SlabSlots
import AttentionDB.Eviction.CwSlru
import AttentionDB.Admission.Admission
import AttentionDB.Storage.Segment
import AttentionDB.Storage.BlobStore
import AttentionDB.Storage.BlobStoreSystem
import AttentionDB.Storage.WriteSections
import AttentionDB.Storage.BlockOwnership
import AttentionDB.Storage.ExtentDisjoint
import AttentionDB.Storage.VisibleEntries
import AttentionDB.Storage.ReadYourWrites
import AttentionDB.Engine.Crc32
import AttentionDB.Engine.Engine
import AttentionDB.Engine.BlobStoreCalls
import AttentionDB.Engine.EngineSteps
import AttentionDB.Engine.Session
import AttentionDB.Engine.T1Slots
import AttentionDB.Engine.T1Ownership
import AttentionDB.Engine.Retention
import AttentionDB.Engine.Coherence
import AttentionDB.Engine.Concurrent
import AttentionDB.Engine.ConcurrentSteps
import AttentionDB.Engine.SlotReuse
import AttentionDB.Engine.SlotRelease
import AttentionDB.Engine.EvictionRace
import AttentionDB.Checkpoint.Checkpoint
import AttentionDB.Checkpoint.Load
import AttentionDB.Checkpoint.Save
import AttentionDB.Checkpoint.RoundTrip
import AttentionDB.Engine.Integrity
import AttentionDB.Storage.Close
import AttentionDB.Storage.NullTargets
import AttentionDB.Engine.ContainsGet
import AttentionDB.Engine.DirtyFlag
import AttentionDB.Engine.LastSave
import AttentionDB.Storage.Lifetime
import AttentionDB.Storage.Shutdown
import AttentionDB.Engine.Lives
import AttentionDB.Engine.Recovery
import AttentionDB.Engine.Generations
import AttentionDB.Engine.GenerationSteps
import AttentionDB.Engine.CrashSafety
import AttentionDB.Engine.CleanRestart
import AttentionDB.Lib.Rows
import AttentionDB.Storage.Gc
import AttentionDB.Storage.PlacedEntries
import AttentionDB.Storage.SegmentRows
import AttentionDB.Storage.PlacedBlobs
import AttentionDB.Storage.PlacedSteps
import AttentionDB.Storage.PlacedWrites
import AttentionDB.Storage.GcRuns
import AttentionDB.Storage.GcSafety
import AttentionDB.Lib.NodeMap
import AttentionDB.Eviction.TrackerCalls
import AttentionDB.Eviction.SegmentBounds
import AttentionDB.Engine.EvictionPass
import AttentionDB.Engine.TrackedKeys
import AttentionDB.Engine.Headroom
import AttentionDB.Engine.TierTrackers
import AttentionDB.Engine.PutPresence
import AttentionDB.Storage.CloseRace
import AttentionDB.Storage.SegmentCounts
import AttentionDB.Engine.LiveCounts
import AttentionDB.Storage.SpareBlocks
import AttentionDB.Storage.QuietSegments
import AttentionDB.Engine.FailedWrites
import AttentionDB.Engine.FailedPuts
import AttentionDB.Eviction.RecencyOrder
import AttentionDB.Eviction.VictimChoice
import AttentionDB.Admission.Monotone
import AttentionDB.Engine.EntrySizes
import AttentionDB.Memory.SlabHistory
import AttentionDB.Memory.SlabBudget
import AttentionDB.Storage.SegmentScan
import AttentionDB.Storage.LogDecode
import AttentionDB.Storage.SegmentLimit
import AttentionDB.Storage.SequenceOrder
import AttentionDB.Engine.Crc32c
import AttentionDB.Core.ParseSize
import AttentionDB.Lib.Loops
import AttentionDB.Storage.TransferLoops
import AttentionDB.Engine.SlotAccess
import AttentionDB.Memory.SlabThreads
import AttentionDB.Lib.LossyMap
import AttentionDB.Engine.CacheRefinement
import AttentionDB.Api.CApi
import AttentionDB.Api.ApiRefinement
import AttentionDB.Engine.SessionCalls
import AttentionDB.Api.PyEngine
import AttentionDB.Api.BackendRefinement
import AttentionDB.Storage.CountHeaders
import AttentionDB.Engine.RestartCounts
import AttentionDB.Storage.SegmentNames
import AttentionDB.Storage.OldFiles
import AttentionDB.Lib.Progress
import AttentionDB.Storage.Sleepers
import AttentionDB.Storage.WritersReturn
import AttentionDB.Api.LmcacheConnector
import AttentionDB.Api.ConnectorRefinement
import AttentionDB.Lib.SavedMap
import AttentionDB.Engine.SavedContents
import AttentionDB.Engine.DirectoryRefinement
import AttentionDB.Lib.Linearizability
import AttentionDB.Engine.ClientThreads
import AttentionDB.Engine.CallPhases
import AttentionDB.Engine.AtomicCalls
import AttentionDB.Storage.OlderSegments
