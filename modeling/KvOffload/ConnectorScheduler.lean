import KvOffload.ConnectorLookup
import KvOffload.StaleHitLadder

/-!
# Scheduler side of the offloading connector

The state of `OffloadingConnectorScheduler`, its jobs, and the answers it gives while a
request is being admitted. Event payloads, statistics and log lines are left out. The
request object is shared with the scheduler core; a call that receives it finds the copy
the connector keeps up to date.
-/

namespace KvOffload.ConnectorScheduler

open KvOffload KvOffload.Base KvOffload.ConnectorConfig KvOffload.ConnectorRequests
open KvOffload.ManagerInterface KvOffload.StaleHitLadder

set_option autoImplicit false

/-- The settings the constructor reads from the environment; a cap of zero is none. -/
structure ConnectorSettings where
  mirrorLocal : Bool := true
  mirrorOfferCap : Nat := 4096
  enablePrefixCaching : Bool := true
  staleHit : StaleHitSettings := {}

/-- The GPU side of a job and the CPU blocks on the other side. -/
structure TransferJob where
  reqId : ReqId
  gpuSpec : GPULoadStoreSpec
  cpuBlockIds : List Nat
  deriving DecidableEq

/-- `keys` is a set, which the source walks in no fixed order; here its elements are listed
once, in the order in which they were accepted. -/
structure TransferJobStatus where
  reqId : ReqId
  pendingCount : Int
  keys : List OffloadKey
  isStore : Bool
  deferredFenceBlockIds : List Nat := []
  fencedBlockIds : List Nat := []
  deriving DecidableEq

structure OffloadingConnectorMetadata where
  loadJobs : OrderedMap JobId TransferJob
  storeJobs : OrderedMap JobId TransferJob
  jobsToFlush : Finset JobId

structure OffloadingConnectorScheduler (M : Type) where
  config : SchedulerOffloadConfig
  settings : ConnectorSettings
  mambaAlignSize : Option Nat
  manager : M
  clock : Clock
  reqStatus : OrderedMap ReqId RequestOffloadState
  currentBatchLoadJobs : OrderedMap JobId TransferJob
  currentBatchJobsToFlush : Finset JobId
  currentBatchAllocatedBlockIds : Finset Nat
  chunksBeingLoaded : Option (Finset OffloadKey)
  jobCounter : JobId
  staleJobThreshold : JobId
  jobs : OrderedMap JobId TransferJobStatus
  blockIdToPendingJobs : OrderedMap Nat (Finset JobId)

variable {M : Type}

namespace OffloadingConnectorScheduler

def new (config : SchedulerOffloadConfig) (settings : ConnectorSettings)
    (mambaAlignSize : Option Nat) (manager : M) (clock : Clock) :
    OffloadingConnectorScheduler M where
  config := config
  settings := settings
  mambaAlignSize := mambaAlignSize
  manager := manager
  clock := clock
  reqStatus := OrderedMap.empty
  currentBatchLoadJobs := OrderedMap.empty
  currentBatchJobsToFlush := ∅
  currentBatchAllocatedBlockIds := ∅
  chunksBeingLoaded := if settings.enablePrefixCaching then some ∅ else none
  jobCounter := 0
  staleJobThreshold := 0
  jobs := OrderedMap.empty
  blockIdToPendingJobs := OrderedMap.empty

variable (scheduler : OffloadingConnectorScheduler M)

def withManager (manager : M) : OffloadingConnectorScheduler M :=
  { scheduler with manager := manager }

def withClock (clock : Clock) : OffloadingConnectorScheduler M :=
  { scheduler with clock := clock }

/-- The attributes of a tracked request change in place. -/
def setStatus (reqId : ReqId) (status : RequestOffloadState) : OffloadingConnectorScheduler M :=
  { scheduler with reqStatus := scheduler.reqStatus.set reqId status }

def forget (reqId : ReqId) : OffloadingConnectorScheduler M :=
  { scheduler with reqStatus := scheduler.reqStatus.erase reqId }

def statusOf (reqId : ReqId) : Except PyError RequestOffloadState :=
  pyItem .requestStatus (scheduler.reqStatus.get? reqId)

def jobStatus (jobId : JobId) : Except PyError TransferJobStatus :=
  pyItem .jobs (scheduler.jobs.get? jobId)

def withJob (jobId : JobId) (status : TransferJobStatus) : OffloadingConnectorScheduler M :=
  { scheduler with jobs := scheduler.jobs.set jobId status }

def generateJobId : JobId × OffloadingConnectorScheduler M :=
  (scheduler.jobCounter, { scheduler with jobCounter := scheduler.jobCounter + 1 })

def fence (jobId : JobId) (blockId : Nat) : OffloadingConnectorScheduler M :=
  let pending := (scheduler.blockIdToPendingJobs.get? blockId).getD ∅
  { scheduler with
    blockIdToPendingJobs := scheduler.blockIdToPendingJobs.set blockId (insert jobId pending) }

/-- `_block_id_to_pending_jobs.setdefault(bid, set()).add(job_id)` for each block. -/
def fenceBlocks (jobId : JobId) (blockIds : List Nat) : OffloadingConnectorScheduler M :=
  blockIds.foldl (fun scheduler blockId => scheduler.fence jobId blockId) scheduler

def removeFence (jobId : JobId) (blockId : Nat) :
    Except PyError (OffloadingConnectorScheduler M) := do
  let pending ← pyItem .blockIdToPendingJobs (scheduler.blockIdToPendingJobs.get? blockId)
  if jobId ∈ pending then
    let pending := pending.erase jobId
    .ok { scheduler with
      blockIdToPendingJobs :=
        if pending = ∅ then scheduler.blockIdToPendingJobs.erase blockId
        else scheduler.blockIdToPendingJobs.set blockId pending }
  else .error (.keyError .blockIdToPendingJobs)

def removePendingJob (jobId : JobId) :
    List Nat → OffloadingConnectorScheduler M → Except PyError (OffloadingConnectorScheduler M)
  | [], scheduler => .ok scheduler
  | blockId :: rest, scheduler => do
      let scheduler ← scheduler.removeFence jobId blockId
      removePendingJob jobId rest scheduler

/-- What the scheduler core does to a request between two calls. -/
def requestChanged (req : Request) : OffloadingConnectorScheduler M :=
  { scheduler with
    reqStatus := scheduler.reqStatus.modify req.requestId fun status => status.withRequest req }

def isStaleHitEscape (reqId : ReqId) : Bool :=
  (scheduler.reqStatus.get? reqId).any fun status => status.staleHit.escape

section Admission

variable [OffloadingManager M]

def onNewRequest (req : Request) : OffloadingConnectorScheduler M :=
  let reqContext := createReqContext req
  let (policy, manager) := OffloadingManager.onNewRequest scheduler.manager reqContext
  (scheduler.withManager manager).setStatus req.requestId
    (RequestOffloadState.new req reqContext policy)

/-- The keys of a group that are touched: a window group keeps the chunks that are
needed to hit the request again, and the decoded ones. -/
def touchedKeys (group : GroupOffloadConfig) (state : RequestGroupState) : List OffloadKey :=
  match group.slidingWindowSizeInChunks with
  | none => state.offloadKeys
  | some window => state.offloadKeys.drop (state.numHitChunks - window)

def touch (status : RequestOffloadState) (manager : M) : Except PyError M := do
  let manager := scheduler.config.kvGroupConfigs.foldl
    (fun manager group => OffloadingLookup.touch manager
      (touchedKeys group (status.groupStates group.groupIdx))) manager
  match status.partialTailBoundary with
  | none => .ok manager
  | some boundary => do
      let keys ← scheduler.config.kvGroupConfigs.mapM fun group =>
        makeBoundaryKey scheduler.config status.req group.groupIdx boundary
      .ok (OffloadingLookup.touch manager keys)

/-- The lookup of a call that no gate answered. -/
def freshLookup (status : RequestOffloadState) :
    Except PyError (Option Nat × RequestOffloadState × M) :=
  if status.req.skipReadingPrefixCache then .ok (some 0, status, scheduler.manager)
  else do
    let ((numHitTokens, boundary), manager) ←
      ConnectorLookup.lookup scheduler.config scheduler.settings.mirrorLocal status
        scheduler.mambaAlignSize scheduler.chunksBeingLoaded scheduler.manager
    .ok (numHitTokens, status.withPartialTail boundary, manager)

/-- The hit and whether it is loaded asynchronously. -/
abbrev Matched := Option Nat × Bool

def Matched.zero : Matched := (some 0, false)

/-- The stale-hit gates after the lookup. -/
def answerHit (reqId : ReqId) (status : RequestOffloadState) (numComputedTokens : Nat)
    (numHitTokens : Option Nat) :
    Except PyError (Matched × OffloadingConnectorScheduler M) :=
  let staleHit := scheduler.settings.staleHit
  match StaleHit.claimGate staleHit status.staleHit scheduler.clock numComputedTokens
      numHitTokens with
  | (true, blocked, clock) =>
      .ok (Matched.zero,
        (scheduler.withClock clock).setStatus reqId (status.withStaleHit blocked))
  | (false, _, _) => do
      let status := status.updateNumHitChunks scheduler.config
        (numComputedTokens + numHitTokens.getD 0)
      let manager ← scheduler.touch status scheduler.manager
      let (fallsBack, climbed, clock) :=
        StaleHit.climb staleHit status.staleHit scheduler.clock numComputedTokens numHitTokens
      let scheduler := ((scheduler.withManager manager).withClock clock).setStatus reqId
        (status.withStaleHit climbed)
      if fallsBack then .ok (Matched.zero, scheduler)
      else .ok ((numHitTokens, decide (0 < numHitTokens.getD 0)), scheduler)

def getNumNewMatchedTokens (reqId : ReqId) (numComputedTokens : Nat) :
    Except PyError (Matched × OffloadingConnectorScheduler M) := do
  let status ← scheduler.statusOf reqId
  let status := status.clearBlockIds
  if status.transferJobs ≠ [] then .ok ((none, false), scheduler.setStatus reqId status)
  else
    let staleHit := scheduler.settings.staleHit
    match StaleHit.escapeGate staleHit status.staleHit scheduler.clock numComputedTokens with
    | (true, held, clock) =>
        .ok (Matched.zero, (scheduler.withClock clock).setStatus reqId (status.withStaleHit held))
    | (false, released, clock) =>
        match StaleHit.pinGate staleHit released clock numComputedTokens with
        | (true, pinned, clock) =>
            .ok (Matched.zero,
              (scheduler.withClock clock).setStatus reqId (status.withStaleHit pinned))
        | (false, unpinned, clock) => do
            let status := { (status.withStaleHit unpinned).updateOffloadKeys scheduler.config with
              numLocallyComputedTokens := numComputedTokens }
            let (numHitTokens, status, manager) ← scheduler.freshLookup status
            ((scheduler.withManager manager).withClock clock).answerHit reqId status
              numComputedTokens numHitTokens

end Admission

end OffloadingConnectorScheduler

end KvOffload.ConnectorScheduler
