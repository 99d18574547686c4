import KvOffload.ConnectorScheduler

/-!
# Load jobs of the connector

`update_state_after_alloc`: which chunks of each group are loaded into the blocks the
KV cache manager has allocated, and the job that loads them.
-/

namespace KvOffload.ConnectorLoads

open KvOffload KvOffload.Base KvOffload.ConnectorConfig KvOffload.ConnectorRequests
open KvOffload.ManagerInterface KvOffload.ConnectorScheduler

set_option autoImplicit false

/-- A block of the request, as the KV cache manager describes it. -/
structure KVCacheBlock where
  blockId : Nat
  isNull : Bool := false
  hasBlockHash : Bool := false
  deriving DecidableEq, Repr

/-- A block that still has to be filled. -/
def KVCacheBlock.isPending (block : KVCacheBlock) : Bool := !block.isNull && !block.hasBlockHash

/-- What is loaded for one group. -/
structure GroupLoad where
  keys : List OffloadKey
  blockIds : List Nat
  numLocallyComputedGpuBlocks : Nat
  numPendingGpuBlocks : Nat
  numChunks : Nat

/-- The index of the first pending block, or the number of blocks. -/
def numLocallyComputed (blocks : List KVCacheBlock) : Nat :=
  blocks.findIdx KVCacheBlock.isPending

section Groups

variable (config : SchedulerOffloadConfig) (status : RequestOffloadState)

/-- The keys of the pending chunks, the last one under its boundary for a partial tail. -/
def pendingKeys (group : GroupOffloadConfig) (startChunkIdx numChunks : Nat) :
    Except PyError (List OffloadKey) :=
  let offloadKeys := (status.groupStates group.groupIdx).offloadKeys
  let endChunkIdx := numChunks - status.partialTailBoundary.isSome.toNat
  do
    pyAssert (endChunkIdx ≤ offloadKeys.length)
    let complete := (offloadKeys.take endChunkIdx).drop startChunkIdx
    match status.partialTailBoundary with
    | none => .ok complete
    | some boundary => do
        let key ← makeBoundaryKey config status.req group.groupIdx boundary
        .ok (complete ++ [key])

/-- A group without pending blocks loads nothing. -/
def keysOfPending (group : GroupOffloadConfig) (numComputed numPending numChunks : Nat) :
    Except PyError (List OffloadKey) :=
  if numPending = 0 then .ok []
  else pendingKeys config status group (numComputed / config.blocksPerChunk) numChunks

def loadGroup (numCachedTokens : Nat) (blocks : List (List KVCacheBlock))
    (group : GroupOffloadConfig) : Except PyError GroupLoad :=
  match blocks[group.groupIdx]? with
  | none => .error .indexError
  | some groupBlocks => do
      let numGpuBlocks := cdiv numCachedTokens group.tokensPerBlock
      pyAssert (numGpuBlocks ≤ groupBlocks.length)
      let numComputed := numLocallyComputed (groupBlocks.take numGpuBlocks)
      pyAssert (status.numLocallyComputedTokens ≤ numComputed * group.tokensPerBlock)
      let numPending := numGpuBlocks - numComputed
      pyAssert (∀ window ∈ group.slidingWindowSizeInChunks,
        numPending ≤ window * config.blocksPerChunk + 1)
      let numChunks := cdiv numCachedTokens group.tokensPerChunk
      let keys ← keysOfPending config status group numComputed numPending numChunks
      .ok
        { keys := keys
          blockIds := ((groupBlocks.take numGpuBlocks).drop numComputed).map KVCacheBlock.blockId
          numLocallyComputedGpuBlocks := numComputed
          numPendingGpuBlocks := numPending
          numChunks := numChunks }

end Groups

/-- The accumulators of the loop over the groups. -/
structure LoadPlan where
  keysToLoad : List OffloadKey
  dstBlockIds : List Nat
  groupSizes : List Nat
  blockIndices : List Nat

namespace LoadPlan

def start (numKvCacheGroups : Nat) : LoadPlan :=
  ⟨[], [], List.replicate numKvCacheGroups 0, List.replicate numKvCacheGroups 0⟩

def add (plan : LoadPlan) (group : GroupOffloadConfig) (load : GroupLoad) : LoadPlan where
  keysToLoad := plan.keysToLoad ++ load.keys
  dstBlockIds := plan.dstBlockIds ++ load.blockIds
  groupSizes := plan.groupSizes.set group.groupIdx load.numPendingGpuBlocks
  blockIndices := plan.blockIndices.set group.groupIdx load.numLocallyComputedGpuBlocks

end LoadPlan

def planLoads (config : SchedulerOffloadConfig) (status : RequestOffloadState)
    (numCachedTokens : Nat) (blocks : List (List KVCacheBlock)) :
    LoadPlan → List GroupOffloadConfig → Except PyError LoadPlan
  | plan, [] => .ok plan
  | plan, group :: rest => do
      let load ← loadGroup config status numCachedTokens blocks group
      planLoads config status numCachedTokens blocks (plan.add group load) rest

/-- With the block-level policy the chunks of a hit are not stored again. -/
def skipHitChunks (config : SchedulerOffloadConfig) (status : RequestOffloadState)
    (numCachedTokens : Nat) : RequestOffloadState :=
  if status.policy = .blockLevel then
    status.mapOffloaded config fun group state =>
      { state with nextStoredChunkIdx := cdiv numCachedTokens group.tokensPerChunk }
  else status

/-- The ids of the allocated blocks, without the null block. -/
def allocatedIds (blocks : List (List KVCacheBlock)) : Finset Nat :=
  (blocks.flatten.map KVCacheBlock.blockId).toFinset.erase 0

variable {M : Type}

/-- The load job of a plan, entered for the request. -/
def enterLoadJob (scheduler : OffloadingConnectorScheduler M) (reqId : ReqId)
    (status : RequestOffloadState) (plan : LoadPlan) (cpuBlockIds : List Nat) :
    Except PyError (OffloadingConnectorScheduler M) := do
  let dstSpec ← GPULoadStoreSpec.make plan.dstBlockIds plan.groupSizes plan.blockIndices
  let (jobId, scheduler) := scheduler.generateJobId
  let scheduler := { scheduler with
    currentBatchLoadJobs := scheduler.currentBatchLoadJobs.set jobId ⟨reqId, dstSpec, cpuBlockIds⟩ }
  pyAssert (status.transferJobs = [])
  let scheduler := (scheduler.setStatus reqId
    ((status.withTransferJob jobId).withPartialTail none)).withJob jobId
      { reqId := reqId
        pendingCount := scheduler.config.numWorkers
        keys := plan.keysToLoad.dedup
        isStore := false }
  .ok { scheduler with
    chunksBeingLoaded := scheduler.chunksBeingLoaded.map fun loading =>
      loading ∪ plan.keysToLoad.toFinset }

theorem enter_load_job_ok (scheduler : OffloadingConnectorScheduler M) (reqId : ReqId)
    {status : RequestOffloadState} {plan : LoadPlan} (cpuBlockIds : List Nat)
    {gpuSpec : GPULoadStoreSpec}
    (made : GPULoadStoreSpec.make plan.dstBlockIds plan.groupSizes plan.blockIndices =
      .ok gpuSpec)
    (idle : status.transferJobs = []) :
    ∃ after, enterLoadJob scheduler reqId status plan cpuBlockIds = .ok after ∧
      after.currentBatchLoadJobs.get? scheduler.jobCounter =
        some ⟨reqId, gpuSpec, cpuBlockIds⟩ := by
  unfold enterLoadJob
  rw [made, ok_bind]
  simp only [OffloadingConnectorScheduler.generateJobId]
  rw [py_assert_of idle, ok_bind]
  refine ⟨_, rfl, ?_⟩
  exact (OrderedMap.get_set ..).trans (if_pos rfl)

variable [OffloadingManager M]

def updateStateAfterAlloc (scheduler : OffloadingConnectorScheduler M) (reqId : ReqId)
    (blocks : List (List KVCacheBlock)) (numExternalTokens : Nat) :
    Except PyError (OffloadingConnectorScheduler M) :=
  if numExternalTokens = 0 then .ok scheduler
  else do
    let status ← scheduler.statusOf reqId
    let numCachedTokens := status.numLocallyComputedTokens + numExternalTokens
    pyAssert (∀ boundary ∈ status.partialTailBoundary, boundary = numCachedTokens)
    let scheduler := { scheduler with
      currentBatchAllocatedBlockIds :=
        scheduler.currentBatchAllocatedBlockIds ∪ allocatedIds blocks }
    let plan ← planLoads scheduler.config status numCachedTokens blocks
      (LoadPlan.start scheduler.config.numKvCacheGroups) scheduler.config.kvGroupConfigs
    let (cpuBlockIds, manager) ← OffloadingManager.prepareLoad scheduler.manager plan.keysToLoad
    enterLoadJob (scheduler.withManager manager) reqId
      (skipHitChunks scheduler.config status numCachedTokens) plan cpuBlockIds

/-- An idle request enters the job of a plan whose keys the manager serves. -/
theorem planned_load_enters {scheduler : OffloadingConnectorScheduler M} {reqId : ReqId}
    {status : RequestOffloadState} (tracked : scheduler.reqStatus.get? reqId = some status)
    {numExternalTokens : Nat} (external : numExternalTokens ≠ 0)
    (tail : ∀ boundary ∈ status.partialTailBoundary,
      boundary = status.numLocallyComputedTokens + numExternalTokens)
    (idle : status.transferJobs = []) {blocks : List (List KVCacheBlock)} {plan : LoadPlan}
    (planned : planLoads scheduler.config status
      (status.numLocallyComputedTokens + numExternalTokens) blocks
      (LoadPlan.start scheduler.config.numKvCacheGroups) scheduler.config.kvGroupConfigs =
        .ok plan)
    {cpuBlockIds : List Nat} {manager : M}
    (prepared : OffloadingManager.prepareLoad scheduler.manager plan.keysToLoad =
      .ok (cpuBlockIds, manager))
    {gpuSpec : GPULoadStoreSpec}
    (made : GPULoadStoreSpec.make plan.dstBlockIds plan.groupSizes plan.blockIndices =
      .ok gpuSpec) :
    ∃ after, updateStateAfterAlloc scheduler reqId blocks numExternalTokens = .ok after ∧
      after.currentBatchLoadJobs.get? scheduler.jobCounter =
        some ⟨reqId, gpuSpec, cpuBlockIds⟩ := by
  have still : (skipHitChunks scheduler.config status
      (status.numLocallyComputedTokens + numExternalTokens)).transferJobs = [] := by
    unfold skipHitChunks
    split
    · exact idle
    · exact idle
  obtain ⟨after, entered, job⟩ := enter_load_job_ok ({ scheduler with
    currentBatchAllocatedBlockIds := scheduler.currentBatchAllocatedBlockIds ∪
      allocatedIds blocks }.withManager manager) reqId cpuBlockIds made still
  refine ⟨after, ?_, job⟩
  unfold updateStateAfterAlloc OffloadingConnectorScheduler.statusOf
  rw [if_neg external, tracked, py_item_some, ok_bind]
  simp only
  rw [py_assert_of tail, ok_bind, planned, ok_bind, prepared, ok_bind]
  exact entered

end KvOffload.ConnectorLoads
