import KvOffload.CpuManagerRuns
import KvOffload.LookupCoverage
import KvOffload.LookupExactness
import KvOffload.StoreReports
import KvOffload.StaleHitLadder
import KvOffload.PolicyMoves
import KvOffload.CpuManagerMoves
import KvOffload.EventMirror
import KvOffload.LruRecency
import KvOffload.ArcRepresentation
import KvOffload.LoadTransfer
import KvOffload.StaleHitRuns
import KvOffload.ConnectorCompletion
import KvOffload.LookupCalls
import KvOffload.JobBooks
import KvOffload.ConnectorMoves
import KvOffload.ConnectorBuilds
import KvOffload.JobInvariants
import KvOffload.ConnectorRuns
import KvOffload.ConnectorResets
import KvOffload.FenceRuns
import KvOffload.ReportRuns
import KvOffload.LateReports
import KvOffload.ReportTrail
import KvOffload.ResetRuns
import KvOffload.StaleHitDeferrals
import KvOffload.DecodeGraphs
import KvOffload.DecodeGraphKeys
import KvOffload.GraphCandidates
import KvOffload.ByteSpans
import KvOffload.TierLayout
import KvOffload.EvictionTombstones
import KvOffload.CanonicalPages
import KvOffload.TransferBooks
import KvOffload.TransferSplit
import KvOffload.ByteCopies
import KvOffload.CanonicalRoundTrip
import KvOffload.MeteredResets
import KvOffload.PendingBlocks
import KvOffload.CarriedPromotions
import KvOffload.MirrorLookups
import KvOffload.StrandedPromotions
import KvOffload.LookupTermination
import KvOffload.QueueBatches
import KvOffload.EvictionOrder
import KvOffload.BatchEviction
import KvOffload.StoreAdmission
import KvOffload.StoreInputs
import KvOffload.EvictableCounts
import KvOffload.StoreRefusals
import KvOffload.SpanTransfers
import KvOffload.SwapRecovery
import KvOffload.RegionPinning
import KvOffload.CacheHitGroups
import KvOffload.CacheHitSearch
import KvOffload.CacheHitResults
import KvOffload.RequestRecords
import KvOffload.OffloadCaps
import KvOffload.OffloadCapBuilds
import KvOffload.OffloadCapRuns
import KvOffload.StoreOffers
import KvOffload.StoreOfferRuns
import KvOffload.ManagerRuns
import KvOffload.PrimaryCalls
import KvOffload.ResidentHits
import KvOffload.LoadAgreement
import KvOffload.ConfirmedLoads
import KvOffload.GatedCopies
import KvOffload.TransferRecords
import KvOffload.SentRecords
import KvOffload.BlockCustody
import KvOffload.StoredContents
import KvOffload.LoadedContents
import KvOffload.ChunkKeys
import KvOffload.StoreDecoding
import KvOffload.StoreTransfer
import KvOffload.WorkerRuns
import KvOffload.DeviceResources
import KvOffload.TransferQueue
import KvOffload.TransferRuns
import KvOffload.FlushIds
import KvOffload.SourceReuse
import KvOffload.RecordedBlocks
import KvOffload.FreshSources
import KvOffload.SharedProcesses
import KvOffload.RegionOpening
import KvOffload.RegionAgreement
import KvOffload.FallibleChains
import KvOffload.EngineState
import KvOffload.EngineScheduling
import KvOffload.EngineOutputs
import KvOffload.EnginePlaces
import KvOffload.EngineDesk
import KvOffload.EngineBudgets
import KvOffload.EngineMoves
import KvOffload.EngineAdmissions
import KvOffload.EngineSteps
import KvOffload.EngineAccounts
import KvOffload.EngineReturns
import KvOffload.EngineUpdates
import KvOffload.EngineReports
import KvOffload.EngineRuns
import KvOffload.RetractionScans
