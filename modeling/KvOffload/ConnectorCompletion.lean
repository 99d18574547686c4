import KvOffload.ConnectorStores

/-!
# Completion, finish and reset in the connector

`update_connector_output` consumes the workers' reports, `request_finished` fences the
blocks of jobs in flight, and `reset_cache` drops all jobs and remembers where the ids of
later jobs start. Transfer statistics are left out.
-/

namespace KvOffload.ConnectorCompletion

open KvOffload KvOffload.Base KvOffload.ConnectorConfig KvOffload.ConnectorRequests
open KvOffload.ManagerInterface KvOffload.ConnectorScheduler

set_option autoImplicit false

variable {M : Type}

/-- The fences of a reported job go; those on other than window blocks exist only for a
finished request. An empty map is not looked at. -/
def dropFences (scheduler : OffloadingConnectorScheduler M) (jobId : JobId)
    (job : TransferJobStatus) (isFinished : Bool) :
    Except PyError (OffloadingConnectorScheduler M) :=
  if scheduler.blockIdToPendingJobs.entries = [] then .ok scheduler
  else do
    let scheduler ← OffloadingConnectorScheduler.removePendingJob jobId job.fencedBlockIds
      scheduler
    if isFinished then
      OffloadingConnectorScheduler.removePendingJob jobId job.deferredFenceBlockIds scheduler
    else .ok scheduler

/-- The job leaves the books, and a signaled request with its last job. -/
def dropJob (scheduler : OffloadingConnectorScheduler M) (jobId : JobId) (reqId : ReqId)
    (status : RequestOffloadState) : Except PyError (OffloadingConnectorScheduler M) :=
  let scheduler := { scheduler with jobs := scheduler.jobs.erase jobId }
  if jobId ∈ status.transferJobs then
    let status := { status with transferJobs := status.transferJobs.erase jobId }
    if status.finishedSignaled = true ∧ status.transferJobs = [] then
      .ok (scheduler.forget reqId)
    else .ok (scheduler.setStatus reqId status)
  else .error (.keyError .transferJobs)

section Reports

variable [OffloadingManager M]

/-- The manager hears of a job that all workers have reported. -/
def completeTransfer (scheduler : OffloadingConnectorScheduler M) (job : TransferJobStatus)
    (status : RequestOffloadState) : Except PyError (OffloadingConnectorScheduler M) :=
  if job.isStore then do
    let manager ← OffloadingManager.completeStore scheduler.manager job.keys status.reqContext
    .ok (scheduler.withManager manager)
  else do
    let manager ← OffloadingManager.completeLoad scheduler.manager job.keys
    .ok { scheduler.withManager manager with
      chunksBeingLoaded := scheduler.chunksBeingLoaded.map fun loading =>
        loading \ job.keys.toFinset }

def finishJob (scheduler : OffloadingConnectorScheduler M) (jobId : JobId)
    (job : TransferJobStatus) : Except PyError (OffloadingConnectorScheduler M) := do
  let status ← scheduler.statusOf job.reqId
  let scheduler ← completeTransfer scheduler job status
  let scheduler ← dropFences scheduler jobId job status.req.isFinished
  dropJob scheduler jobId job.reqId status

/-- `count` workers report the job; jobs from before a reset are skipped. -/
def reportJob (scheduler : OffloadingConnectorScheduler M) (jobId : JobId) (count : Int) :
    Except PyError (OffloadingConnectorScheduler M) := do
  pyAssert (0 < count)
  if jobId < scheduler.staleJobThreshold then .ok scheduler
  else do
    let job ← scheduler.jobStatus jobId
    let reported := { job with pendingCount := job.pendingCount - count }
    let scheduler := scheduler.withJob jobId reported
    if 0 < reported.pendingCount then .ok scheduler
    else do
      pyAssert (reported.pendingCount = 0)
      finishJob scheduler jobId reported

def updateConnectorOutput : OffloadingConnectorScheduler M → List (JobId × Int) →
    Except PyError (OffloadingConnectorScheduler M)
  | scheduler, [] => .ok scheduler
  | scheduler, (jobId, count) :: rest => do
      let scheduler ← reportJob scheduler jobId count
      updateConnectorOutput scheduler rest

end Reports

section Finish

def fenceDeferred : OffloadingConnectorScheduler M → List JobId →
    Except PyError (OffloadingConnectorScheduler M)
  | scheduler, [] => .ok scheduler
  | scheduler, jobId :: rest => do
      let job ← scheduler.jobStatus jobId
      fenceDeferred (scheduler.fenceBlocks jobId job.deferredFenceBlockIds) rest

variable [OffloadingManager M]

/-- A tracked request stays until its last stores are prepared in the next step. -/
def requestFinished (scheduler : OffloadingConnectorScheduler M) (req : Request) :
    Except PyError (OffloadingConnectorScheduler M) :=
  match scheduler.reqStatus.get? req.requestId with
  | none => do
      let reqContext := createReqContext req
      let (_, manager) := OffloadingManager.onNewRequest scheduler.manager reqContext
      let manager ← OffloadingManager.onRequestFinished manager reqContext
      .ok (scheduler.withManager manager)
  | some status =>
      let status := (status.withRequest req).updateOffloadKeys scheduler.config
      fenceDeferred (scheduler.setStatus req.requestId status) status.transferJobs

end Finish

section Reset

/-- Active requests are offloaded again from their first chunk. -/
def resetStatus (status : RequestOffloadState) : RequestOffloadState :=
  { status.mapGroups fun _ state => { state with nextStoredChunkIdx := 0 } with
    transferJobs := []
    partialTailBoundary := none }

variable [OffloadingManager M]

def dropFinished : OffloadingConnectorScheduler M → List (ReqId × RequestOffloadState) →
    Except PyError (OffloadingConnectorScheduler M)
  | scheduler, [] => .ok scheduler
  | scheduler, (reqId, status) :: rest =>
      if status.req.isFinished = false then dropFinished scheduler rest
      else if status.finishedSignaled then dropFinished (scheduler.forget reqId) rest
      else do
        let manager ← OffloadingManager.onRequestFinished scheduler.manager status.reqContext
        dropFinished ((scheduler.withManager manager).forget reqId) rest

/-- What is left once the manager is reset. The ids to flush stay for the workers. -/
def forgetJobs (scheduler : OffloadingConnectorScheduler M) : OffloadingConnectorScheduler M :=
  { scheduler with
    reqStatus := scheduler.reqStatus.mapValues fun _ status => resetStatus status
    staleJobThreshold := scheduler.jobCounter
    jobs := OrderedMap.empty
    blockIdToPendingJobs := OrderedMap.empty
    chunksBeingLoaded := scheduler.chunksBeingLoaded.map fun _ => ∅ }

def resetCache (scheduler : OffloadingConnectorScheduler M) :
    Except PyError (OffloadingConnectorScheduler M) := do
  pyAssert (scheduler.currentBatchLoadJobs.entries.isEmpty = true)
  pyAssert (scheduler.currentBatchJobsToFlush = ∅)
  pyAssert (scheduler.currentBatchAllocatedBlockIds = ∅)
  let flushing := { scheduler with
    currentBatchJobsToFlush := scheduler.jobs.keys.toFinset }
  let scheduler ← dropFinished flushing flushing.reqStatus.entries
  let manager ← OffloadingManager.resetCache scheduler.manager
  .ok (forgetJobs (scheduler.withManager manager))

end Reset

end KvOffload.ConnectorCompletion
