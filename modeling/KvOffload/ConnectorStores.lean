import KvOffload.ConnectorLoads

/-!
# Store jobs of the connector

`build_connector_meta`: the connector records the blocks of the step, offers the chunks
they complete to the manager, and turns what is accepted into store jobs. Counters of the
mirror and event payloads are left out. Sets of request ids are lists in the order in
which the step walks them.
-/

namespace KvOffload.ConnectorStores

open KvOffload KvOffload.Base KvOffload.ConnectorConfig KvOffload.ConnectorRequests
open KvOffload.ManagerInterface KvOffload.ConnectorScheduler

set_option autoImplicit false

/-- What `yield_req_data` yields for a request; no list of groups for no new blocks. -/
structure ReqData where
  reqId : ReqId
  newBlockIdGroups : List (List Nat)
  preempted : Bool

structure PartialTailOffload where
  groupIdx : Nat
  blockId : Nat
  boundary : Nat

/-- The part of the scheduler's output that the connector reads. -/
structure SchedulerOutput where
  reqData : List ReqData := []
  newReqIds : List ReqId := []
  numScheduledTokens : OrderedMap ReqId Nat := OrderedMap.empty
  finishedReqIds : List ReqId := []
  preemptedReqIds : List ReqId := []
  partialTailOffloads : OrderedMap ReqId (List PartialTailOffload) := OrderedMap.empty

/-- Where the recorded blocks of a request ended before the step, by group. -/
abbrev BlockIdEnds := OrderedMap ReqId (Nat → Nat)

variable {M : Type}

section Blocks

variable (scheduler : OffloadingConnectorScheduler M)

def recordBlocks (ends : BlockIdEnds) (data : ReqData) :
    Except PyError (OffloadingConnectorScheduler M × BlockIdEnds) := do
  let status ← scheduler.statusOf data.reqId
  let status := status.updateOffloadKeys scheduler.config
  let status := if data.preempted then status.clearBlockIds else status
  if data.newBlockIdGroups = [] then .ok (scheduler.setStatus data.reqId status, ends)
  else do
    let extended ← status.updateBlockIdGroups scheduler.config data.newBlockIdGroups
    .ok ({ scheduler.setStatus data.reqId extended with
        currentBatchAllocatedBlockIds := scheduler.currentBatchAllocatedBlockIds ∪
          data.newBlockIdGroups.flatten.toFinset.erase 0 },
      ends.set data.reqId fun groupIdx => (status.groupStates groupIdx).blockIds.length)

def recordAllBlocks : OffloadingConnectorScheduler M → BlockIdEnds → List ReqData →
    Except PyError (OffloadingConnectorScheduler M × BlockIdEnds)
  | scheduler, ends, [] => .ok (scheduler, ends)
  | scheduler, ends, data :: rest => do
      let (scheduler, ends) ← recordBlocks scheduler ends data
      recordAllBlocks scheduler ends rest

/-- Recorded ids in `[start, stop)` that were handed out again become zero. -/
def zeroStale (allocated : Finset Nat) (start stop : Nat) (blockIds : List Nat) : List Nat :=
  blockIds.mapIdx fun index blockId =>
    if start ≤ index ∧ index < stop ∧ blockId ∈ allocated then 0 else blockId

/-- Blocks of a window group that were not stored yet, up to the blocks of this step. -/
def zeroStaleOf (config : SchedulerOffloadConfig) (allocated : Finset Nat)
    (ends : Option (Nat → Nat)) (status : RequestOffloadState) : RequestOffloadState :=
  status.mapOffloaded config fun group state =>
    if group.slidingWindowSizeInChunks.isSome then
      { state with
        blockIds := zeroStale allocated (state.nextStoredChunkIdx * config.blocksPerChunk)
          (match ends with
            | none => state.blockIds.length
            | some ends => ends group.groupIdx) state.blockIds }
    else state

def zeroStaleBlocks (ends : BlockIdEnds) : OffloadingConnectorScheduler M :=
  { scheduler with
    reqStatus := scheduler.reqStatus.mapValues fun reqId status =>
      zeroStaleOf scheduler.config scheduler.currentBatchAllocatedBlockIds (ends.get? reqId)
        status }

def updateReqStates (output : SchedulerOutput) :
    Except PyError (OffloadingConnectorScheduler M) := do
  let (scheduler, ends) ← recordAllBlocks scheduler OrderedMap.empty output.reqData
  .ok (zeroStaleBlocks scheduler ends)

end Blocks

/-- The build of a step: the scheduler so far, the mirror's offers and the store jobs. -/
structure StoreBuild (M : Type) where
  scheduler : OffloadingConnectorScheduler M
  offered : Nat
  storeJobs : OrderedMap JobId TransferJob

namespace StoreBuild

def withScheduler (build : StoreBuild M) (scheduler : OffloadingConnectorScheduler M) :
    StoreBuild M :=
  { build with scheduler := scheduler }

/-- Enters a store job for the request: the worker's job and what is kept until it is
reported. -/
def enterJob (build : StoreBuild M) (reqId : ReqId) (status : RequestOffloadState)
    (gpuSpec : GPULoadStoreSpec) (output : PrepareStoreOutput) (fenced deferred : List Nat) :
    StoreBuild M :=
  let (jobId, scheduler) := build.scheduler.generateJobId
  { build with
    scheduler := ((scheduler.setStatus reqId (status.withTransferJob jobId)).fenceBlocks jobId
      fenced).withJob jobId
        { reqId := reqId
          pendingCount := scheduler.config.numWorkers
          keys := output.keysToStore.dedup
          isStore := true
          deferredFenceBlockIds := deferred
          fencedBlockIds := fenced }
    storeJobs := build.storeJobs.set jobId ⟨reqId, gpuSpec, output.storeSpec⟩ }

end StoreBuild

section PartialTail

variable [OffloadingManager M]

/-- The copy-on-write source of a group in a handoff. -/
def cowBlock (entries : List PartialTailOffload) (groupIdx : Nat) : Option Nat :=
  (entries.reverse.find? fun entry => entry.groupIdx = groupIdx).map PartialTailOffload.blockId

/-- The block of a group that holds its partial tail. -/
def tailBlock (config : SchedulerOffloadConfig) (status : RequestOffloadState)
    (entries : List PartialTailOffload) (blockIdx groupIdx : Nat) : Nat :=
  if groupIdx ∈ config.cowSourceGroups then (cowBlock entries groupIdx).getD 0
  else (status.groupStates groupIdx).blockIds.getD blockIdx 0

def maxTailBoundary (status : RequestOffloadState) : Nat :=
  let limit := status.maxOffloadTokens.getD 0
  min status.req.numPromptTokens (if limit = 0 then status.req.numPromptTokens else limit)

/-- Offers the tail under its boundary keys. -/
def storePartialTail (build : StoreBuild M) (reqId : ReqId) (status : RequestOffloadState)
    (entries : List PartialTailOffload) (boundary : Nat) : Except PyError (StoreBuild M) := do
  let scheduler := build.scheduler
  let config := scheduler.config
  let blockIdx := boundary / config.partialTailBlockSize
  let groups := config.kvGroupConfigs.map GroupOffloadConfig.groupIdx
  let keys ← config.kvGroupConfigs.mapM fun group =>
    makeBoundaryKey config status.req group.groupIdx boundary
  pyAssert (∀ groupIdx ∈ groups, tailBlock config status entries blockIdx groupIdx ≠ 0)
  match ← OffloadingManager.prepareStore scheduler.manager keys status.reqContext false with
  | (none, manager) => .ok (build.withScheduler (scheduler.withManager manager))
  | (some output, manager) =>
      let build := build.withScheduler (scheduler.withManager manager)
      if output.keysToStore = [] then .ok build
      else do
        let accepted ← output.keysToStore.mapM fun key =>
          pyItem .groupByKey (assocGet (keys.zip groups) key)
        let accepted := accepted.insertionSort (· ≤ ·)
        let sources := accepted.map (tailBlock config status entries blockIdx)
        let empty := List.replicate config.numKvCacheGroups 0
        let gpuSpec ← GPULoadStoreSpec.make sources
          (accepted.foldl (fun sizes groupIdx => sizes.set groupIdx 1) empty)
          (accepted.foldl (fun indices groupIdx => indices.set groupIdx blockIdx) empty)
        .ok (build.enterJob reqId status gpuSpec output sources [])

def partialTailJob (build : StoreBuild M) (reqId : ReqId) (entries : List PartialTailOffload) :
    Except PyError (StoreBuild M) :=
  let config := build.scheduler.config
  match build.scheduler.reqStatus.get? reqId, entries with
  | some status, first :: _ => do
      let boundary := first.boundary
      pyAssert (∀ entry ∈ entries, entry.boundary = boundary)
      pyAssert (0 < boundary)
      pyAssert (boundary % config.tokensPerHash = 0)
      pyAssert (boundary ≤ maxTailBoundary status)
      pyAssert (∀ groupIdx ∈ config.cowSourceGroups, (cowBlock entries groupIdx).isSome)
      pyAssert (boundary % config.partialTailBlockSize ≠ 0)
      if ∃ group ∈ config.kvGroupConfigs, group.groupIdx ∉ config.cowSourceGroups ∧
          (status.groupStates group.groupIdx).blockIds.length ≤
            boundary / config.partialTailBlockSize then
        .ok build
      else storePartialTail build reqId status entries boundary
  | _, _ => .error .assertionError

def buildPartialTailJobs :
    StoreBuild M → List (ReqId × List PartialTailOffload) → Except PyError (StoreBuild M)
  | build, [] => .ok build
  | build, (reqId, entries) :: rest => do
      let build ← partialTailJob build reqId entries
      buildPartialTailJobs build rest

def buildPartialTailStoreJobs (build : StoreBuild M) (output : SchedulerOutput) :
    Except PyError (StoreBuild M) :=
  if build.scheduler.config.supportsPartialTail then
    buildPartialTailJobs build output.partialTailOffloads.entries
  else .ok build

end PartialTail

section Stores

/-- Tokens whose blocks are computed once the step has run. -/
def numTokensAfterBatch (output : SchedulerOutput) (req : Request) : Except PyError Nat :=
  match req.status with
  | .finishedAborted => .ok req.numComputedTokens
  | .finished => .ok req.numTokens
  | .unfinished => do
      let numScheduledTokens ← pyItem .numScheduledTokens
        (output.numScheduledTokens.get? req.requestId)
      .ok (req.numComputedTokens + numScheduledTokens)

/-- What a request offers; `offered` counts the mirror's offers of the whole step. -/
structure Offers (M : Type) where
  manager : M
  offered : Nat
  keys : List OffloadKey

/-- The request whose chunks are offered. -/
structure Offering where
  config : SchedulerOffloadConfig
  settings : ConnectorSettings
  status : RequestOffloadState
  numOffloadableTokens : Nat

namespace Offering

variable (offering : Offering) (group : GroupOffloadConfig)

def state : RequestGroupState := offering.status.groupStates group.groupIdx

def numChunks : Nat :=
  offering.status.storableChunks offering.config group (offering.state group)
    offering.numOffloadableTokens

/-- The mirror offers again what the tier may have evicted. -/
def startChunkIdx : Nat :=
  if offering.settings.mirrorLocal then 0 else (offering.state group).nextStoredChunkIdx

/-- The chunks from the start on with their keys and their last GPU blocks. -/
def chunks : List (Nat × OffloadKey × Nat) :=
  let blocksPerChunk := offering.config.blocksPerChunk
  let start := offering.startChunkIdx group
  (((offering.state group).offloadKeys.take (offering.numChunks group)).drop start).mapIdx
    fun index key =>
      (start + index, key, (offering.state group).blockIds.getD
        ((start + index) * blocksPerChunk + blocksPerChunk - 1) 0)

variable [OffloadingManager M]

def offerChunk (chunkIdx : Nat) (key : OffloadKey) (blockId : Nat) (offers : Offers M) :
    Except PyError (Offers M) :=
  if blockId = 0 then .ok offers
  else if isStoreReachableSwaChunk chunkIdx (offering.numChunks group)
      group.alignmentChunkCount group.slidingWindowSizeInChunks group.isEagleGroup = false then
    .ok offers
  else if offering.settings.mirrorLocal ∧
      chunkIdx < (offering.state group).nextStoredChunkIdx then
    if offering.settings.mirrorOfferCap ≠ 0 ∧
        offering.settings.mirrorOfferCap ≤ offers.offered then .ok offers
    else do
      let (result, manager) ← OffloadingLookup.lookup offers.manager key
        offering.status.reqContext
      if result = .hit ∨ result = .hitPending then .ok { offers with manager := manager }
      else .ok ⟨manager, offers.offered + 1, offers.keys ++ [key]⟩
  else .ok { offers with keys := offers.keys ++ [key] }

def offerChunks : Offers M → List (Nat × OffloadKey × Nat) → Except PyError (Offers M)
  | offers, [] => .ok offers
  | offers, (chunkIdx, key, blockId) :: rest => do
      let offers ← offering.offerChunk group chunkIdx key blockId offers
      offerChunks offers rest

def offerGroup (offers : Offers M) : Except PyError (Offers M) :=
  if offering.numChunks group ≤ offering.startChunkIdx group then .ok offers
  else do
    pyAssert ((offering.chunks group).length =
      offering.numChunks group - offering.startChunkIdx group)
    offering.offerChunks group offers (offering.chunks group)

def offerGroups : Offers M → List GroupOffloadConfig → Except PyError (Offers M)
  | offers, [] => .ok offers
  | offers, group :: rest => do
      let offers ← offering.offerGroup group offers
      offerGroups offers rest

/-- The blocks of a chunk with their indices in the group. -/
def chunkBlocks (chunkIdx : Nat) : List (Nat × Nat) :=
  (List.range offering.config.blocksPerChunk).map fun index =>
    let gpuBlockIdx := chunkIdx * offering.config.blocksPerChunk + index
    (gpuBlockIdx, (offering.state group).blockIds.getD gpuBlockIdx 0)

/-- The blocks of the accepted chunks that are not null. -/
def sourceBlocks (keysToStore : List OffloadKey) : List (Nat × Nat) :=
  (((offering.chunks group).filter fun chunk => chunk.2.1 ∈ keysToStore).flatMap fun chunk =>
    offering.chunkBlocks group chunk.1).filter fun block => block.2 ≠ 0

/-- The source blocks of the groups that satisfy `keep`. -/
def sourceIds (keysToStore : List OffloadKey) (keep : GroupOffloadConfig → Bool) : List Nat :=
  (offering.config.kvGroupConfigs.filter keep).flatMap fun group =>
    (offering.sourceBlocks group keysToStore).map Prod.snd

def storeSpec (keysToStore : List OffloadKey) : Except PyError GPULoadStoreSpec :=
  let empty := List.replicate offering.config.numKvCacheGroups 0
  GPULoadStoreSpec.make (offering.sourceIds keysToStore fun _ => true)
    (offering.config.kvGroupConfigs.foldl (fun sizes group =>
      sizes.set group.groupIdx (offering.sourceBlocks group keysToStore).length) empty)
    (offering.config.kvGroupConfigs.foldl (fun indices group =>
      indices.set group.groupIdx
        (((offering.sourceBlocks group keysToStore).head?.map Prod.fst).getD 0)) empty)

end Offering

variable [OffloadingManager M]

/-- A store is only issued while no load is pending; one job is looked at. -/
def assertStoring (scheduler : OffloadingConnectorScheduler M) (transferJobs : List JobId) :
    Except PyError Unit :=
  match transferJobs with
  | [] => .ok ()
  | jobId :: _ => do
      let job ← scheduler.jobStatus jobId
      pyAssert (job.isStore = true)

/-- The store job for what the manager accepted. -/
def storeAccepted (build : StoreBuild M) (reqId : ReqId) (offering : Offering)
    (output : PrepareStoreOutput) : Except PyError (StoreBuild M) := do
  let status := offering.status
  let manager ← build.scheduler.touch status build.scheduler.manager
  let gpuSpec ← offering.storeSpec output.keysToStore
  assertStoring build.scheduler status.transferJobs
  let fenced := offering.sourceIds output.keysToStore fun group =>
    group.slidingWindowSizeInChunks.isSome
  let deferred := offering.sourceIds output.keysToStore fun group =>
    group.slidingWindowSizeInChunks.isNone
  let jobId := build.scheduler.jobCounter
  let entered := (build.withScheduler (build.scheduler.withManager manager)).enterJob reqId
    (status.advanceStoredIdx offering.config offering.numOffloadableTokens) gpuSpec output fenced
    deferred
  if status.req.isFinished then
    let fencing := entered.scheduler.fenceBlocks jobId deferred
    .ok (entered.withScheduler { fencing with
      currentBatchJobsToFlush :=
        if ∃ blockId ∈ deferred, blockId ∈ fencing.currentBatchAllocatedBlockIds then
          insert jobId fencing.currentBatchJobsToFlush
        else fencing.currentBatchJobsToFlush })
  else .ok entered

/-- Offers the keys of a request; nothing is left to offer once they are stored. -/
def storeOffers (build : StoreBuild M) (reqId : ReqId) (offering : Offering)
    (keys : List OffloadKey) : Except PyError (StoreBuild M) :=
  let scheduler := build.scheduler
  let advanced := scheduler.setStatus reqId
    (offering.status.advanceStoredIdx offering.config offering.numOffloadableTokens)
  if keys = [] then .ok (build.withScheduler advanced)
  else do
    match ← OffloadingManager.prepareStore scheduler.manager keys offering.status.reqContext
        scheduler.settings.mirrorLocal with
    | (none, manager) => .ok (build.withScheduler (scheduler.withManager manager))
    | (some output, manager) =>
        let stored := build.withScheduler (scheduler.withManager manager)
        if output.keysToStore = [] then .ok (build.withScheduler (advanced.withManager manager))
        else storeAccepted stored reqId offering output

def storeRequest (output : SchedulerOutput) (build : StoreBuild M) (reqId : ReqId) :
    Except PyError (StoreBuild M) :=
  match build.scheduler.reqStatus.get? reqId with
  | none => .ok build
  | some status => do
      let scheduler := build.scheduler
      let numTokens ← numTokensAfterBatch output status.req
      let offering : Offering :=
        ⟨scheduler.config, scheduler.settings, status,
          status.calcNumOffloadableTokens scheduler.config numTokens⟩
      let offers ← offering.offerGroups ⟨scheduler.manager, build.offered, []⟩
        scheduler.config.kvGroupConfigs
      storeOffers { build with
        scheduler := scheduler.withManager offers.manager
        offered := offers.offered } reqId offering offers.keys

def storeRequests (output : SchedulerOutput) :
    StoreBuild M → List ReqId → Except PyError (StoreBuild M)
  | build, [] => .ok build
  | build, reqId :: rest => do
      let build ← storeRequest output build reqId
      storeRequests output build rest

def buildStoreJobs (build : StoreBuild M) (output : SchedulerOutput) :
    Except PyError (StoreBuild M) :=
  storeRequests output build (output.numScheduledTokens.keys ++ output.finishedReqIds)

end Stores

section Metadata

variable [OffloadingManager M]

/-- Jobs of preempted requests are waited for before their blocks are reused. -/
def flushPreempted : OffloadingConnectorScheduler M → List ReqId →
    Except PyError (OffloadingConnectorScheduler M)
  | scheduler, [] => .ok scheduler
  | scheduler, reqId :: rest =>
      match scheduler.reqStatus.get? reqId with
      | none => flushPreempted scheduler rest
      | some status => do
          assertStoring scheduler status.transferJobs
          flushPreempted { scheduler with
            currentBatchJobsToFlush :=
              scheduler.currentBatchJobsToFlush ∪ status.transferJobs.toFinset } rest

/-- Jobs that read blocks which are handed out again in this step. -/
def reallocatedJobs (scheduler : OffloadingConnectorScheduler M) : Finset JobId :=
  scheduler.currentBatchAllocatedBlockIds.biUnion fun blockId =>
    (scheduler.blockIdToPendingJobs.get? blockId).getD ∅

def flushReallocated (scheduler : OffloadingConnectorScheduler M) :
    OffloadingConnectorScheduler M :=
  { scheduler with
    currentBatchJobsToFlush := scheduler.currentBatchJobsToFlush ∪ reallocatedJobs scheduler }

def drainFlushJobs (scheduler : OffloadingConnectorScheduler M) :
    OffloadingConnectorScheduler M :=
  let (retracted, manager) := OffloadingManager.drainFlushJobIds scheduler.manager
  { scheduler.withManager manager with
    currentBatchJobsToFlush := scheduler.currentBatchJobsToFlush ∪ retracted }

/-- The manager hears of a finished request once all its stores are prepared. -/
def signalFinished : OffloadingConnectorScheduler M → List ReqId →
    Except PyError (OffloadingConnectorScheduler M)
  | scheduler, [] => .ok scheduler
  | scheduler, reqId :: rest =>
      match scheduler.reqStatus.get? reqId with
      | none => signalFinished scheduler rest
      | some status => do
          let manager ← OffloadingManager.onRequestFinished scheduler.manager status.reqContext
          let signaled := (scheduler.withManager manager).setStatus reqId
            { status with finishedSignaled := true }
          signalFinished (if status.transferJobs = [] then signaled.forget reqId else signaled)
            rest

def clearBatch (scheduler : OffloadingConnectorScheduler M) : OffloadingConnectorScheduler M :=
  { scheduler with
    currentBatchLoadJobs := OrderedMap.empty
    currentBatchJobsToFlush := ∅
    currentBatchAllocatedBlockIds := ∅ }

def buildConnectorMeta (scheduler : OffloadingConnectorScheduler M) (output : SchedulerOutput) :
    Except PyError (OffloadingConnectorMetadata × OffloadingConnectorScheduler M) := do
  let scheduler ← updateReqStates scheduler output
  let manager ← OffloadingManager.onScheduleEnd scheduler.manager
    ⟨output.newReqIds, output.preemptedReqIds⟩
  let scheduler ← flushPreempted (scheduler.withManager manager) output.preemptedReqIds
  let scheduler := drainFlushJobs (flushReallocated scheduler)
  let build ← buildPartialTailStoreJobs ⟨scheduler, 0, OrderedMap.empty⟩ output
  let build ← buildStoreJobs build output
  let connectorMeta : OffloadingConnectorMetadata :=
    { loadJobs := build.scheduler.currentBatchLoadJobs
      storeJobs := build.storeJobs
      jobsToFlush := build.scheduler.currentBatchJobsToFlush }
  let scheduler ← signalFinished build.scheduler output.finishedReqIds
  .ok (connectorMeta, clearBatch scheduler)

end Metadata

end KvOffload.ConnectorStores
