import KvOffload.FenceRuns
import KvOffload.RequestRecords
import KvOffload.ResetRuns

/-!
# The jobs that a step flushes

The workers wait for the jobs to flush before they run the step. These are the jobs in flight
at a reset, those of preempted requests, those that read a block which the step hands out
again, and those that the manager retracted.
-/

namespace KvOffload.FlushIds

open KvOffload KvOffload.Base KvOffload.ConnectorConfig KvOffload.ConnectorRequests
open KvOffload.ManagerInterface KvOffload.ConnectorScheduler KvOffload.ConnectorLoads
open KvOffload.ConnectorStores KvOffload.JobBooks KvOffload.ConnectorMoves
open KvOffload.ConnectorBuilds KvOffload.JobInvariants KvOffload.ConnectorRuns
open KvOffload.FenceRuns KvOffload.RequestRecords KvOffload.ResetRuns

set_option autoImplicit false

variable {M : Type}

def newBlockIds (data : List ReqData) : Finset Nat :=
  (data.flatMap fun entry => entry.newBlockIdGroups.flatten).toFinset.erase 0

/-- The blocks that were handed out since the last step, by loads and by the step itself. -/
def handedOut (scheduler : OffloadingConnectorScheduler M) (output : SchedulerOutput) :
    Finset Nat :=
  scheduler.currentBatchAllocatedBlockIds ∪ newBlockIds output.reqData

section Beginning

variable {scheduler after : OffloadingConnectorScheduler M}

theorem new_block_ids_cons (entry : ReqData) (rest : List ReqData) :
    newBlockIds (entry :: rest) =
      entry.newBlockIdGroups.flatten.toFinset.erase 0 ∪ newBlockIds rest := by
  ext blockId
  simp only [newBlockIds, List.flatMap_cons, List.toFinset_append, Finset.mem_erase,
    Finset.mem_union]
  tauto

theorem record_blocks_allocated {ends later : BlockIdEnds} {data : ReqData}
    (recorded : recordBlocks scheduler ends data = .ok (after, later)) :
    after.currentBatchAllocatedBlockIds = scheduler.currentBatchAllocatedBlockIds ∪
      data.newBlockIdGroups.flatten.toFinset.erase 0 := by
  obtain ⟨status, _, recorded⟩ := bind_eq_ok.mp recorded
  dsimp only at recorded
  split at recorded
  · rename_i none
    cases recorded
    rw [none]
    exact (Finset.union_empty _).symm
  · obtain ⟨extended, _, recorded⟩ := bind_eq_ok.mp recorded
    cases recorded
    rfl

theorem record_all_blocks_allocated (data : List ReqData)
    {scheduler : OffloadingConnectorScheduler M} {ends later : BlockIdEnds}
    (recorded : recordAllBlocks scheduler ends data = .ok (after, later)) :
    after.currentBatchAllocatedBlockIds =
      scheduler.currentBatchAllocatedBlockIds ∪ newBlockIds data := by
  induction data generalizing scheduler ends with
  | nil =>
      cases recorded
      exact (Finset.union_empty _).symm
  | cons entry rest ih =>
      obtain ⟨⟨middle, ends⟩, first, recorded⟩ := bind_eq_ok.mp recorded
      rw [ih recorded, record_blocks_allocated first, new_block_ids_cons, Finset.union_assoc]

theorem update_req_states_batch {output : SchedulerOutput}
    (updated : updateReqStates scheduler output = .ok after) :
    after.currentBatchAllocatedBlockIds = handedOut scheduler output ∧
      after.currentBatchJobsToFlush = scheduler.currentBatchJobsToFlush := by
  obtain ⟨⟨recording, ends⟩, recordings, updated⟩ := bind_eq_ok.mp updated
  cases updated
  have allocated := record_all_blocks_allocated _ recordings
  have flush := record_all_blocks_flush _ recordings
  exact ⟨allocated, flush⟩

/-- A preempted request's jobs are all flushed. -/
theorem flush_preempted_exact (reqIds : List ReqId) {scheduler : OffloadingConnectorScheduler M}
    (flushed : flushPreempted scheduler reqIds = .ok after) :
    after.currentBatchAllocatedBlockIds = scheduler.currentBatchAllocatedBlockIds ∧
      ∀ jobId, jobId ∈ after.currentBatchJobsToFlush ↔
        jobId ∈ scheduler.currentBatchJobsToFlush ∨ ∃ reqId ∈ reqIds, ∃ request,
          (desk scheduler).requests reqId = some request ∧ jobId ∈ request.transferJobs := by
  induction reqIds generalizing scheduler with
  | nil =>
      cases flushed
      simp
  | cons reqId rest ih =>
      unfold flushPreempted at flushed
      split at flushed
      · rename_i untracked
        obtain ⟨allocated, exactly⟩ := ih flushed
        refine ⟨allocated, fun jobId => (exactly jobId).trans (or_congr_right ?_)⟩
        have none : (desk scheduler).requests reqId = none := by
          rw [desk_requests, untracked]
          rfl
        simp [none]
      · rename_i status found
        obtain ⟨_, _, flushed⟩ := bind_eq_ok.mp flushed
        obtain ⟨allocated, exactly⟩ := ih flushed
        refine ⟨allocated, fun jobId => (exactly jobId).trans ?_⟩
        show jobId ∈ scheduler.currentBatchJobsToFlush ∪ status.transferJobs.toFinset ∨ _ ↔ _
        rw [Finset.mem_union, List.mem_toFinset, or_assoc]
        refine or_congr_right ?_
        have tracked := tracked_of_status found
        simp only [List.mem_cons, exists_eq_or_imp, tracked, Option.some.injEq,
          exists_eq_left']
        rfl

theorem mem_reallocated_jobs {jobId : JobId} :
    jobId ∈ reallocatedJobs scheduler ↔
      ∃ blockId ∈ scheduler.currentBatchAllocatedBlockIds, ∃ jobIds,
        scheduler.blockIdToPendingJobs.get? blockId = some jobIds ∧ jobId ∈ jobIds := by
  unfold reallocatedJobs
  rw [Finset.mem_biUnion]
  refine exists_congr fun blockId => and_congr_right fun _ => ?_
  cases found : scheduler.blockIdToPendingJobs.get? blockId with
  | none => simp
  | some jobIds => simp

variable [OffloadingManager M]

/-- What a step flushes before it stores anything. -/
theorem before_tails_flush {output : SchedulerOutput}
    (began : beforeTails scheduler output = .ok after) :
    ∃ manager, OffloadingManager.onScheduleEnd scheduler.manager
        ⟨output.newReqIds, output.preemptedReqIds⟩ = .ok manager ∧
      after.currentBatchAllocatedBlockIds = handedOut scheduler output ∧
      ∀ jobId, jobId ∈ after.currentBatchJobsToFlush ↔
        jobId ∈ scheduler.currentBatchJobsToFlush ∨
        (∃ reqId ∈ output.preemptedReqIds, ∃ request,
          (desk scheduler).requests reqId = some request ∧ jobId ∈ request.transferJobs) ∨
        (∃ blockId ∈ handedOut scheduler output, ∃ jobIds,
          scheduler.blockIdToPendingJobs.get? blockId = some jobIds ∧ jobId ∈ jobIds) ∨
        jobId ∈ (OffloadingManager.drainFlushJobIds manager).1 := by
  obtain ⟨updated, recorded, began⟩ := bind_eq_ok.mp began
  obtain ⟨manager, call, began⟩ := bind_eq_ok.mp began
  obtain ⟨flushed, flushing, began⟩ := bind_eq_ok.mp began
  cases began
  have updatedDesk := update_req_states_desk recorded
  obtain ⟨allocated, flush⟩ := update_req_states_batch recorded
  obtain ⟨kept, exactly⟩ := flush_preempted_exact _ flushing
  have flushedDesk := flush_preempted_desk _ flushing
  have sameManager : flushed.manager = manager := congrArg Desk.manager flushedDesk
  have sameFences : flushed.blockIdToPendingJobs = scheduler.blockIdToPendingJobs :=
    (congrArg Desk.fences flushedDesk).trans (congrArg Desk.fences updatedDesk)
  have requests : (desk (updated.withManager manager)).requests = (desk scheduler).requests :=
    (rfl : _ = (desk updated).requests).trans (congrArg Desk.requests updatedDesk)
  have told : (updated.withManager manager).currentBatchJobsToFlush =
      scheduler.currentBatchJobsToFlush := flush
  have handed : (updated.withManager manager).currentBatchAllocatedBlockIds =
      handedOut scheduler output := allocated
  have manages : updated.manager = scheduler.manager := congrArg Desk.manager updatedDesk
  refine ⟨manager, manages ▸ call, kept.trans allocated, fun jobId => ?_⟩
  show jobId ∈ flushed.currentBatchJobsToFlush ∪ reallocatedJobs flushed ∪
    (OffloadingManager.drainFlushJobIds flushed.manager).1 ↔ _
  rw [Finset.mem_union, Finset.mem_union, exactly, mem_reallocated_jobs, sameManager, sameFences,
    kept, requests, told, handed, or_assoc, or_assoc]

end Beginning

/-- The request of the job has finished, and one of its blocks was handed out again before
the job was made. -/
def Late (begun : OffloadingConnectorScheduler M) (job : TransferJobStatus) : Prop :=
  (∃ request, (desk begun).requests job.reqId = some request ∧ request.isFinished = true) ∧
    ∃ blockId ∈ job.deferredFenceBlockIds, blockId ∈ begun.currentBatchAllocatedBlockIds

/-- What a store job waits with. A partial tail waits with all its blocks from the start; the
chunks of a request with the blocks of window groups from the start, and with the other
blocks once the request has finished. -/
def FenceLists (job : TransferJobStatus) (transfer : TransferJob) : Prop :=
  (job.fencedBlockIds = transfer.gpuSpec.blockIds ∧ job.deferredFenceBlockIds = []) ∨
    ∃ (offering : Offering) (keysToStore : List OffloadKey),
      transfer.gpuSpec.blockIds = (offering.sourceIds keysToStore fun _ => true) ∧
      job.fencedBlockIds = fencedIds offering keysToStore ∧
      job.deferredFenceBlockIds = deferredIds offering keysToStore

/-- The store job of the transfer. -/
structure Covers (job : TransferJobStatus) (transfer : TransferJob) : Prop where
  isStore : job.isStore = true
  own : job.reqId = transfer.reqId
  lists : FenceLists job transfer

/-- Each source block waits, as a window block or once the request has finished. -/
theorem source_ids_covered (offering : Offering) (keysToStore : List OffloadKey) (blockId : Nat) :
    (blockId ∈ offering.sourceIds keysToStore fun _ => true) ↔
      blockId ∈ fencedIds offering keysToStore ∨ blockId ∈ deferredIds offering keysToStore := by
  unfold fencedIds deferredIds Offering.sourceIds
  simp only [List.mem_flatMap, List.mem_filter]
  constructor
  · rintro ⟨group, ⟨known, _⟩, source⟩
    cases window : group.slidingWindowSizeInChunks with
    | some size => exact .inl ⟨group, ⟨known, by rw [window]; rfl⟩, source⟩
    | none => exact .inr ⟨group, ⟨known, by rw [window]; rfl⟩, source⟩
  · rintro (⟨group, ⟨known, _⟩, source⟩ | ⟨group, ⟨known, _⟩, source⟩)
    · exact ⟨group, ⟨known, trivial⟩, source⟩
    · exact ⟨group, ⟨known, trivial⟩, source⟩

/-- A store job waits with the blocks that it reads and with no others. -/
theorem fence_lists_blocks {job : TransferJobStatus} {transfer : TransferJob}
    (lists : FenceLists job transfer) (blockId : Nat) :
    blockId ∈ transfer.gpuSpec.blockIds ↔
      blockId ∈ job.fencedBlockIds ∨ blockId ∈ job.deferredFenceBlockIds := by
  rcases lists with ⟨fenced, deferred⟩ | ⟨offering, keysToStore, blocks, fenced, deferred⟩
  · simp [fenced, deferred]
  · rw [blocks, fenced, deferred]
    exact source_ids_covered offering keysToStore blockId

/-- A step while it stores: the jobs it has made, which of them it flushes, and that each
waits with the blocks that it reads. -/
structure Stage (begun now : OffloadingConnectorScheduler M)
    (storeJobs : OrderedMap JobId TransferJob) : Prop where
  allocated : now.currentBatchAllocatedBlockIds = begun.currentBatchAllocatedBlockIds
  flagged : ∀ reqId,
    ((desk now).requests reqId).map flags = ((desk begun).requests reqId).map flags
  counter : begun.jobCounter ≤ now.jobCounter
  bounded : ∀ jobId job, now.jobs.get? jobId = some job → jobId < now.jobCounter
  earlier : ∀ jobId, jobId < begun.jobCounter → now.jobs.get? jobId = begun.jobs.get? jobId
  flush : ∀ jobId, jobId ∈ now.currentBatchJobsToFlush ↔
    jobId ∈ begun.currentBatchJobsToFlush ∨ begun.jobCounter ≤ jobId ∧
      ∃ job, now.jobs.get? jobId = some job ∧ Late begun job
  covered : ∀ jobId transfer, storeJobs.get? jobId = some transfer → begun.jobCounter ≤ jobId ∧
    ∃ job, now.jobs.get? jobId = some job ∧ Covers job transfer

section Stages

variable {begun now later : OffloadingConnectorScheduler M}
  {storeJobs : OrderedMap JobId TransferJob}

theorem stage_start
    (bounded : ∀ jobId job, begun.jobs.get? jobId = some job → jobId < begun.jobCounter) :
    Stage begun begun OrderedMap.empty where
  allocated := rfl
  flagged _ := rfl
  counter := le_rfl
  bounded := bounded
  earlier _ _ := rfl
  flush jobId := by
    constructor
    · exact .inl
    · rintro (flushed | ⟨late, job, found, _⟩)
      · exact flushed
      · exact absurd (bounded jobId job found) (Nat.not_lt.mpr late)
  covered jobId job found := by cases found

theorem stage_frame (stage : Stage begun now storeJobs) (same : batch later = batch now)
    (jobs : later.jobs = now.jobs) (counter : later.jobCounter = now.jobCounter)
    (requests : ∀ reqId,
      ((desk later).requests reqId).map flags = ((desk now).requests reqId).map flags) :
    Stage begun later storeJobs := by
  simp only [batch, Prod.mk.injEq] at same
  obtain ⟨_, flush, allocated⟩ := same
  refine ⟨allocated.trans stage.allocated, fun reqId => (requests reqId).trans (stage.flagged reqId),
    ?_, ?_, ?_, ?_, ?_⟩
  · rw [counter]
    exact stage.counter
  · rw [jobs, counter]
    exact stage.bounded
  · rw [jobs]
    exact stage.earlier
  · rw [jobs, flush]
    exact stage.flush
  · rw [jobs]
    exact stage.covered

/-- A store job enters the step. -/
theorem stage_enter (stage : Stage begun now storeJobs) {job : TransferJobStatus}
    {transfer : TransferJob}
    (allocated : later.currentBatchAllocatedBlockIds = now.currentBatchAllocatedBlockIds)
    (jobs : later.jobs = now.jobs.set now.jobCounter job)
    (counter : later.jobCounter = now.jobCounter + 1)
    (requests : ∀ reqId,
      ((desk later).requests reqId).map flags = ((desk now).requests reqId).map flags)
    (flush : ∀ jobId, jobId ∈ later.currentBatchJobsToFlush ↔
      jobId ∈ now.currentBatchJobsToFlush ∨ jobId = now.jobCounter ∧ Late begun job)
    (covers : Covers job transfer) :
    Stage begun later (storeJobs.set now.jobCounter transfer) := by
  have found : ∀ jobId, later.jobs.get? jobId =
      if jobId = now.jobCounter then some job else now.jobs.get? jobId := by
    intro jobId
    rw [jobs, OrderedMap.get_set]
  have absent : now.jobs.get? now.jobCounter = none := by
    by_contra present
    obtain ⟨old, isOld⟩ := Option.ne_none_iff_exists'.mp present
    exact absurd (stage.bounded _ old isOld) (lt_irrefl _)
  refine ⟨allocated.trans stage.allocated, fun reqId => (requests reqId).trans (stage.flagged reqId),
    ?_, ?_, ?_, ?_, ?_⟩
  · rw [counter]
    exact stage.counter.trans (Nat.le_succ _)
  · intro jobId kept isKept
    rw [counter]
    rw [found] at isKept
    split at isKept
    · rename_i isNew
      rw [isNew]
      exact Nat.lt_succ_self _
    · exact (stage.bounded jobId kept isKept).trans (Nat.lt_succ_self _)
  · intro jobId early
    rw [found, if_neg (Nat.ne_of_lt (early.trans_le stage.counter))]
    exact stage.earlier jobId early
  · intro jobId
    rw [flush, stage.flush, or_assoc]
    refine or_congr_right ?_
    by_cases isNew : jobId = now.jobCounter
    · subst isNew
      constructor
      · rintro (⟨_, old, isOld, _⟩ | ⟨_, late⟩)
        · cases absent.symm.trans isOld
        · exact ⟨stage.counter, job, (found _).trans (if_pos rfl), late⟩
      · rintro ⟨_, kept, isKept, late⟩
        rw [found, if_pos rfl] at isKept
        cases isKept
        exact .inr ⟨rfl, late⟩
    · simp only [found, isNew, if_false, false_and, or_false]
  · intro jobId sent isSent
    rw [OrderedMap.get_set] at isSent
    split at isSent
    · rename_i isNew
      cases isSent
      subst isNew
      exact ⟨stage.counter, job, (found _).trans (if_pos rfl), covers⟩
    · rename_i isOld
      obtain ⟨early, kept, isKept, facts⟩ := stage.covered jobId sent isSent
      exact ⟨early, kept, (found jobId).trans ((if_neg isOld).trans isKept), facts⟩

theorem gpu_spec_blocks {blockIds groupSizes blockIndices : List Nat} {spec : GPULoadStoreSpec}
    (made : GPULoadStoreSpec.make blockIds groupSizes blockIndices = .ok spec) :
    spec.blockIds = blockIds := by
  unfold GPULoadStoreSpec.make at made
  split at made
  · cases made
    rfl
  · cases made

theorem enter_job_jobs (build : StoreBuild M) (reqId : ReqId) (status : RequestOffloadState)
    (gpuSpec : GPULoadStoreSpec) (output : PrepareStoreOutput) (fenced deferred : List Nat) :
    (build.enterJob reqId status gpuSpec output fenced deferred).scheduler.jobs =
        build.scheduler.jobs.set build.scheduler.jobCounter
          { reqId := reqId
            pendingCount := build.scheduler.config.numWorkers
            keys := output.keysToStore.dedup
            isStore := true
            deferredFenceBlockIds := deferred
            fencedBlockIds := fenced } ∧
      (build.enterJob reqId status gpuSpec output fenced deferred).scheduler.jobCounter =
        build.scheduler.jobCounter + 1 := by
  have entered := enter_job_desk build reqId status gpuSpec output fenced deferred
  exact ⟨congrArg Desk.jobs entered, congrArg Desk.jobCounter entered⟩

end Stages

section Stores

variable [OffloadingManager M] {begun : OffloadingConnectorScheduler M}
  {build done : StoreBuild M}

omit [OffloadingManager M] in
/-- A job that waits with all its blocks from the start is never late. -/
theorem enter_job_stage {reqId : ReqId} {status : RequestOffloadState}
    (stage : Stage begun build.scheduler build.storeJobs)
    (known : build.scheduler.reqStatus.get? reqId = some status) {gpuSpec : GPULoadStoreSpec}
    (output : PrepareStoreOutput) {fenced : List Nat} (blocks : gpuSpec.blockIds = fenced) :
    Stage begun (build.enterJob reqId status gpuSpec output fenced []).scheduler
      (build.enterJob reqId status gpuSpec output fenced []).storeJobs := by
  have batched := enter_job_batch build reqId status gpuSpec output fenced []
  obtain ⟨jobs, counter⟩ := enter_job_jobs build reqId status gpuSpec output fenced []
  refine stage_enter stage (congrArg (fun batch => batch.2.2) batched) jobs counter ?_ ?_
    ⟨rfl, rfl, .inl ⟨blocks.symm, rfl⟩⟩
  · intro other
    rw [enter_job_desk]
    exact enter_flags _ (tracked_of_status known) _ fenced other
  · intro jobId
    have flush := congrArg (fun batch => batch.2.1) batched
    dsimp only [batch] at flush
    rw [flush]
    refine (or_iff_left ?_).symm
    rintro ⟨_, _, _, none, _⟩
    exact List.not_mem_nil none

theorem store_partial_tail_stage {reqId : ReqId} {status : RequestOffloadState}
    {entries : List PartialTailOffload} {boundary : Nat}
    (stage : Stage begun build.scheduler build.storeJobs)
    (known : build.scheduler.reqStatus.get? reqId = some status)
    (stored : storePartialTail build reqId status entries boundary = .ok done) :
    Stage begun done.scheduler done.storeJobs := by
  obtain ⟨keys, _, stored⟩ := bind_eq_ok.mp stored
  obtain ⟨_, _, stored⟩ := bind_eq_ok.mp stored
  obtain ⟨⟨output, manager⟩, _, stored⟩ := bind_eq_ok.mp stored
  have told : Stage begun (build.withScheduler (build.scheduler.withManager manager)).scheduler
      build.storeJobs := stage_frame stage rfl rfl rfl fun _ => rfl
  cases output with
  | none =>
      cases stored
      exact told
  | some output =>
      dsimp only at stored
      split at stored
      · cases stored
        exact told
      · obtain ⟨accepted, _, stored⟩ := bind_eq_ok.mp stored
        obtain ⟨gpuSpec, made, stored⟩ := bind_eq_ok.mp stored
        cases stored
        exact enter_job_stage told known output (gpu_spec_blocks made)

theorem build_partial_tail_jobs_stage (handoffs : List (ReqId × List PartialTailOffload))
    {build : StoreBuild M} (stage : Stage begun build.scheduler build.storeJobs)
    (built : buildPartialTailJobs build handoffs = .ok done) :
    Stage begun done.scheduler done.storeJobs := by
  induction handoffs generalizing build with
  | nil =>
      cases built
      exact stage
  | cons handoff rest ih =>
      obtain ⟨reqId, entries⟩ := handoff
      obtain ⟨middle, stored, built⟩ := bind_eq_ok.mp built
      apply ih _ built
      unfold partialTailJob at stored
      dsimp only at stored
      split at stored
      · rename_i status first others known
        obtain ⟨_, _, stored⟩ := bind_eq_ok.mp stored
        obtain ⟨_, _, stored⟩ := bind_eq_ok.mp stored
        obtain ⟨_, _, stored⟩ := bind_eq_ok.mp stored
        obtain ⟨_, _, stored⟩ := bind_eq_ok.mp stored
        obtain ⟨_, _, stored⟩ := bind_eq_ok.mp stored
        obtain ⟨_, _, stored⟩ := bind_eq_ok.mp stored
        split at stored
        · cases stored
          exact stage
        · exact store_partial_tail_stage stage known stored
      · cases stored

/-- What a store of accepted keys leaves in the batch: a late job is flushed at once. -/
theorem store_accepted_batch {reqId : ReqId} {offering : Offering} {output : PrepareStoreOutput}
    (stored : storeAccepted build reqId offering output = .ok done) :
    done.scheduler.currentBatchAllocatedBlockIds =
        build.scheduler.currentBatchAllocatedBlockIds ∧
      (∀ jobId, jobId ∈ done.scheduler.currentBatchJobsToFlush ↔
        jobId ∈ build.scheduler.currentBatchJobsToFlush ∨
          jobId = build.scheduler.jobCounter ∧ offering.status.req.isFinished = true ∧
            ∃ blockId ∈ deferredIds offering output.keysToStore,
              blockId ∈ build.scheduler.currentBatchAllocatedBlockIds) ∧
      ∃ gpuSpec, offering.storeSpec output.keysToStore = .ok gpuSpec ∧
        done.storeJobs =
          build.storeJobs.set build.scheduler.jobCounter ⟨reqId, gpuSpec, output.storeSpec⟩ := by
  unfold deferredIds
  obtain ⟨manager, _, stored⟩ := bind_eq_ok.mp stored
  obtain ⟨gpuSpec, made, stored⟩ := bind_eq_ok.mp stored
  obtain ⟨_, _, stored⟩ := bind_eq_ok.mp stored
  have entered := enter_job_batch (build.withScheduler (build.scheduler.withManager manager))
    reqId (offering.status.advanceStoredIdx offering.config offering.numOffloadableTokens)
    gpuSpec output (fencedIds offering output.keysToStore)
    (deferredIds offering output.keysToStore)
  unfold fencedIds deferredIds at entered
  dsimp only at stored
  split at stored
  · rename_i finished
    cases stored
    have fencing := (fence_blocks_batch build.scheduler.jobCounter
      (deferredIds offering output.keysToStore) _).trans entered
    have flush := congrArg (fun batch => batch.2.1) fencing
    have allocated := congrArg (fun batch => batch.2.2) fencing
    unfold deferredIds at flush allocated
    dsimp only [batch] at flush allocated
    refine ⟨allocated, fun jobId => ?_, gpuSpec, made, rfl⟩
    show jobId ∈ (if _ then insert build.scheduler.jobCounter _ else _) ↔ _
    split
    · rename_i late
      rw [flush, Finset.mem_insert, or_comm]
      rw [allocated] at late
      exact or_congr_right ⟨fun isNew => ⟨isNew, finished, late⟩, fun isNew => isNew.1⟩
    · rename_i clear
      rw [allocated] at clear
      rw [flush]
      exact (or_iff_left fun isNew => clear isNew.2.2).symm
  · rename_i active
    cases stored
    have flush := congrArg (fun batch => batch.2.1) entered
    have allocated := congrArg (fun batch => batch.2.2) entered
    dsimp only [batch] at flush allocated
    refine ⟨allocated, fun jobId => ?_, gpuSpec, made, rfl⟩
    show jobId ∈ (StoreBuild.enterJob _ _ _ _ _ _ _).scheduler.currentBatchJobsToFlush ↔ _
    rw [flush]
    exact (or_iff_left fun isNew => active isNew.2.1).symm

theorem store_accepted_stage {reqId : ReqId} {offering : Offering} {output : PrepareStoreOutput}
    (stage : Stage begun build.scheduler build.storeJobs)
    (known : build.scheduler.reqStatus.get? reqId = some offering.status)
    (stored : storeAccepted build reqId offering output = .ok done) :
    Stage begun done.scheduler done.storeJobs := by
  obtain ⟨manager, _, books⟩ := store_accepted_desk stored
  obtain ⟨allocated, flush, gpuSpec, made, sent⟩ := store_accepted_batch stored
  have tracked := tracked_of_status known
  have kept := stage.flagged reqId
  rw [tracked] at kept
  obtain ⟨request, isRequest, sameFlags⟩ := Option.map_eq_some_iff.mp kept.symm
  have finished : request.isFinished = offering.status.req.isFinished :=
    congrArg (fun flags => flags.2.2) sameFlags
  rw [sent]
  refine stage_enter stage allocated (congrArg Desk.jobs books) (congrArg Desk.jobCounter books)
    ?_ ?_ ⟨rfl, rfl, .inr ⟨offering, output.keysToStore, gpu_spec_blocks made, rfl, rfl⟩⟩
  · intro other
    rw [books]
    exact enter_flags ((desk build.scheduler).withManager manager) tracked
      (storeJob reqId build.scheduler.config.numWorkers offering output) (fencedIds offering
        output.keysToStore ++ if offering.status.req.isFinished then
          deferredIds offering output.keysToStore else []) other
  · intro jobId
    rw [flush]
    refine or_congr_right (and_congr_right fun _ => ?_)
    show _ ↔ (∃ request, (desk begun).requests reqId = some request ∧ _) ∧
      ∃ blockId ∈ deferredIds offering output.keysToStore, _
    rw [← stage.allocated, isRequest, ← finished]
    simp

theorem store_request_stage {output : SchedulerOutput} {reqId : ReqId}
    (stage : Stage begun build.scheduler build.storeJobs)
    (stored : storeRequest output build reqId = .ok done) :
    Stage begun done.scheduler done.storeJobs := by
  unfold storeRequest at stored
  split at stored
  · cases stored
    exact stage
  · rename_i status known
    obtain ⟨numTokens, _, stored⟩ := bind_eq_ok.mp stored
    obtain ⟨offers, offered, stored⟩ := bind_eq_ok.mp stored
    have offeredStage : Stage begun (build.scheduler.withManager offers.manager)
        build.storeJobs := stage_frame stage rfl rfl rfl fun _ => rfl
    have advanced : ∀ manager, Stage begun ((build.scheduler.setStatus reqId
        (status.advanceStoredIdx build.scheduler.config
          (status.calcNumOffloadableTokens build.scheduler.config numTokens))).withManager manager)
        build.storeJobs := by
      intro manager
      refine stage_frame stage rfl rfl rfl fun other => ?_
      have same := @desk_set_same M build.scheduler reqId status (status.advanceStoredIdx
        build.scheduler.config (status.calcNumOffloadableTokens build.scheduler.config numTokens))
        known rfl
      have sameFlags := congrArg (fun books => (Desk.requests books other).map flags) same
      exact sameFlags
    unfold storeOffers at stored
    dsimp only at stored
    split at stored
    · cases stored
      exact advanced offers.manager
    · obtain ⟨⟨accepted, manager⟩, _, stored⟩ := bind_eq_ok.mp stored
      cases accepted with
      | none =>
          cases stored
          exact stage_frame stage rfl rfl rfl fun _ => rfl
      | some accepted =>
          dsimp only at stored
          split at stored
          · cases stored
            exact advanced manager
          · refine store_accepted_stage ?_ ?_ stored
            · exact stage_frame stage rfl rfl rfl fun _ => rfl
            · exact known

theorem store_requests_stage {output : SchedulerOutput} (reqIds : List ReqId)
    {build : StoreBuild M} (stage : Stage begun build.scheduler build.storeJobs)
    (stored : storeRequests output build reqIds = .ok done) :
    Stage begun done.scheduler done.storeJobs := by
  induction reqIds generalizing build with
  | nil =>
      cases stored
      exact stage
  | cons reqId rest ih =>
      obtain ⟨middle, first, stored⟩ := bind_eq_ok.mp stored
      exact ih (store_request_stage stage first) stored

end Stores

section Steps

variable {scheduler after : OffloadingConnectorScheduler M} {output : SchedulerOutput}

/-- The job is one of a preempted request. -/
def OfPreempted (scheduler : OffloadingConnectorScheduler M) (output : SchedulerOutput)
    (jobId : JobId) : Prop :=
  ∃ reqId ∈ output.preemptedReqIds, ∃ status, scheduler.reqStatus.get? reqId = some status ∧
    jobId ∈ status.transferJobs

/-- The store job reads a block that is handed out again: one that it waits with from the start,
of a window group or of a partial tail, or any block once its request has finished. -/
def ReadsReused (scheduler : OffloadingConnectorScheduler M) (output : SchedulerOutput)
    (jobId : JobId) : Prop :=
  ∃ job status, scheduler.jobs.get? jobId = some job ∧ job.isStore = true ∧
    scheduler.reqStatus.get? job.reqId = some status ∧
    ∃ blockId ∈ handedOut scheduler output, blockId ∈ job.fencedBlockIds ∨
      blockId ∈ job.deferredFenceBlockIds ∧ status.req.isFinished = true

/-- The step itself made the job, for a finished request, and handed out one of its blocks. -/
def MadeLate (scheduler after : OffloadingConnectorScheduler M) (output : SchedulerOutput)
    (jobId : JobId) : Prop :=
  scheduler.jobCounter ≤ jobId ∧ ∃ job status, after.jobs.get? jobId = some job ∧
    scheduler.reqStatus.get? job.reqId = some status ∧ status.req.isFinished = true ∧
    ∃ blockId ∈ job.deferredFenceBlockIds, blockId ∈ handedOut scheduler output

variable [OffloadingManager M]

theorem signal_finished_jobs (reqIds : List ReqId) {scheduler : OffloadingConnectorScheduler M}
    (signaled : signalFinished scheduler reqIds = .ok after) : after.jobs = scheduler.jobs := by
  induction reqIds generalizing scheduler with
  | nil =>
      cases signaled
      rfl
  | cons reqId rest ih =>
      unfold signalFinished at signaled
      split at signaled
      · exact ih signaled
      · obtain ⟨manager, _, signaled⟩ := bind_eq_ok.mp signaled
        apply (ih signaled).trans
        split
        · rfl
        · rfl

theorem before_tails_books (began : beforeTails scheduler output = .ok after) :
    after.jobs = scheduler.jobs ∧ after.jobCounter = scheduler.jobCounter ∧
      (desk after).requests = (desk scheduler).requests := by
  obtain ⟨updated, recorded, began⟩ := bind_eq_ok.mp began
  obtain ⟨manager, call, began⟩ := bind_eq_ok.mp began
  obtain ⟨flushed, flushing, began⟩ := bind_eq_ok.mp began
  cases began
  have updatedDesk := update_req_states_desk recorded
  have flushedDesk := flush_preempted_desk _ flushing
  exact ⟨(congrArg Desk.jobs flushedDesk).trans (congrArg Desk.jobs updatedDesk),
    (congrArg Desk.jobCounter flushedDesk).trans (congrArg Desk.jobCounter updatedDesk),
    (congrArg Desk.requests flushedDesk).trans
      ((rfl : _ = (desk updated).requests).trans (congrArg Desk.requests updatedDesk))⟩

/-- A whole step: where the stores began, and the stage that they left. -/
theorem build_meta_stage {connectorMeta : OffloadingConnectorMetadata}
    (bounded : ∀ jobId job, scheduler.jobs.get? jobId = some job → jobId < scheduler.jobCounter)
    (built : buildConnectorMeta scheduler output = .ok (connectorMeta, after)) :
    ∃ begun stored, beforeTails scheduler output = .ok begun ∧
      Stage begun stored connectorMeta.storeJobs ∧
      connectorMeta.jobsToFlush = stored.currentBatchJobsToFlush ∧ after.jobs = stored.jobs := by
  rw [build_connector_meta_eq] at built
  obtain ⟨build, jobs, built⟩ := bind_eq_ok.mp built
  obtain ⟨signaled, signals, built⟩ := bind_eq_ok.mp built
  cases built
  obtain ⟨updated, recorded, jobs⟩ := bind_eq_ok.mp jobs
  obtain ⟨manager, call, jobs⟩ := bind_eq_ok.mp jobs
  obtain ⟨flushed, flushing, jobs⟩ := bind_eq_ok.mp jobs
  obtain ⟨tails, tail, stored⟩ := bind_eq_ok.mp jobs
  have began : beforeTails scheduler output = .ok (drainFlushJobs (flushReallocated flushed)) :=
    bind_eq_ok.mpr ⟨updated, recorded, bind_eq_ok.mpr ⟨manager, call,
      bind_eq_ok.mpr ⟨flushed, flushing, rfl⟩⟩⟩
  have signaledJobs := signal_finished_jobs _ signals
  refine ⟨_, build.scheduler, began, ?_, rfl, signaledJobs⟩
  obtain ⟨jobs, counter, _⟩ := before_tails_books began
  have start : Stage (drainFlushJobs (flushReallocated flushed))
      (drainFlushJobs (flushReallocated flushed)) OrderedMap.empty := by
    apply stage_start
    rw [jobs, counter]
    exact bounded
  have tailed : Stage (drainFlushJobs (flushReallocated flushed)) tails.scheduler
      tails.storeJobs := by
    unfold buildPartialTailStoreJobs at tail
    split at tail
    · exact build_partial_tail_jobs_stage _ start tail
    · cases tail
      exact start
  exact store_requests_stage _ tailed stored

/-- The store jobs of a step are live behind it, and wait with the blocks that they read. -/
theorem sent_stores_covered {connectorMeta : OffloadingConnectorMetadata}
    (bounded : ∀ jobId job, scheduler.jobs.get? jobId = some job → jobId < scheduler.jobCounter)
    (built : buildConnectorMeta scheduler output = .ok (connectorMeta, after)) {jobId : JobId}
    {transfer : TransferJob} (sent : connectorMeta.storeJobs.get? jobId = some transfer) :
    scheduler.jobCounter ≤ jobId ∧
      ∃ job, after.jobs.get? jobId = some job ∧ Covers job transfer := by
  obtain ⟨begun, stored, began, stage, _, jobs⟩ := build_meta_stage bounded built
  rw [← (before_tails_books began).2.1, jobs]
  exact stage.covered jobId transfer sent

omit [OffloadingManager M] in
theorem reads_reused_iff (exact_ : FencesExact scheduler) (jobId : JobId) :
    (∃ blockId ∈ handedOut scheduler output, ∃ jobIds,
      scheduler.blockIdToPendingJobs.get? blockId = some jobIds ∧ jobId ∈ jobIds) ↔
      ReadsReused scheduler output jobId := by
  constructor
  · rintro ⟨blockId, handed, fenced⟩
    obtain ⟨job, status, found, isStore, tracked, reads⟩ := (exact_.exact blockId jobId).mp fenced
    exact ⟨job, status, found, isStore, tracked, blockId, handed, reads⟩
  · rintro ⟨job, status, found, isStore, tracked, blockId, handed, reads⟩
    exact ⟨blockId, handed, (exact_.exact blockId jobId).mpr
      ⟨job, status, found, isStore, tracked, reads⟩⟩

omit [OffloadingManager M] in
/-- A request in the books, as the scheduler keeps it. -/
theorem request_status_iff {reqId : ReqId} {holds : ReqBooks → Prop} :
    (∃ request, (desk scheduler).requests reqId = some request ∧ holds request) ↔
      ∃ status, scheduler.reqStatus.get? reqId = some status ∧ holds (reqBooks status) := by
  constructor
  · rintro ⟨request, found, fact⟩
    obtain ⟨status, isStatus, rfl⟩ := status_of_tracked found
    exact ⟨status, isStatus, fact⟩
  · rintro ⟨status, found, fact⟩
    exact ⟨reqBooks status, tracked_of_status found, fact⟩

/-- In every run a step flushes exactly the jobs in flight at a reset since the last step, those
of preempted requests, those that read a block which is handed out again, and those that the
manager retracted. -/
theorem flush_ids_exact {config : SchedulerOffloadConfig} {settings : ConnectorSettings}
    {mambaAlignSize : Option Nat} {manager : M} {clock : StaleHitLadder.Clock}
    {state : RunState M}
    (reaches : EventRuns.Reaches RunState.apply RunState.Permitted
      (RunState.start config settings mambaAlignSize manager clock) state)
    {connectorMeta : OffloadingConnectorMetadata}
    (built : buildConnectorMeta state.scheduler output = .ok (connectorMeta, after)) :
    ∃ ended, OffloadingManager.onScheduleEnd state.scheduler.manager
        ⟨output.newReqIds, output.preemptedReqIds⟩ = .ok ended ∧
      ∀ jobId, jobId ∈ connectorMeta.jobsToFlush ↔
        jobId ∈ state.unsent ∨ OfPreempted state.scheduler output jobId ∨
          ReadsReused state.scheduler output jobId ∨
          jobId ∈ (OffloadingManager.drainFlushJobIds ended).1 ∨
          MadeLate state.scheduler after output jobId := by
  have books := reached_fence_books reaches
  obtain ⟨begun, stored, began, stage, flush, jobs⟩ := build_meta_stage books.jobs.below built
  obtain ⟨ended, call, allocated, exactly⟩ := before_tails_flush began
  obtain ⟨_, counter, requests⟩ := before_tails_books began
  refine ⟨ended, call, fun jobId => ?_⟩
  rw [flush, stage.flush, exactly, reads_reused_iff (fences_exact_of_books books),
    (reached_batch_inv reaches).flush, or_assoc, or_assoc, or_assoc]
  refine or_congr_right (or_congr ?_ (or_congr_right (or_congr_right ?_)))
  · exact exists_congr fun reqId => and_congr_right fun _ => request_status_iff
  · unfold MadeLate Late
    rw [counter, jobs, requests, allocated]
    refine and_congr_right fun _ => ?_
    constructor
    · rintro ⟨job, found, finished, reused⟩
      obtain ⟨status, isStatus, finished⟩ := request_status_iff.mp finished
      exact ⟨job, status, found, isStatus, finished, reused⟩
    · rintro ⟨job, status, found, isStatus, finished, reused⟩
      exact ⟨job, found, request_status_iff.mpr ⟨status, isStatus, finished⟩, reused⟩

end Steps

/-- The third job is in flight when its block is handed out again. -/
def reusingOutput : SchedulerOutput where
  reqData := [⟨0, [[3]], false⟩]
  numScheduledTokens := OrderedMap.empty.set 0 2

theorem reused_block_flushed :
    ∃ (state : RunState (CpuManager.CPUOffloadingManager LruPolicy.LRUCachePolicy))
        (connectorMeta : OffloadingConnectorMetadata)
        (after : OffloadingConnectorScheduler
          (CpuManager.CPUOffloadingManager LruPolicy.LRUCachePolicy)),
      (∃ ended, OffloadingManager.onScheduleEnd state.scheduler.manager
          ⟨reusingOutput.newReqIds, reusingOutput.preemptedReqIds⟩ = .ok ended ∧
        ∀ jobId, jobId ∈ connectorMeta.jobsToFlush ↔
          jobId ∈ state.unsent ∨ OfPreempted state.scheduler reusingOutput jobId ∨
            ReadsReused state.scheduler reusingOutput jobId ∨
            jobId ∈ (OffloadingManager.drainFlushJobIds ended).1 ∨
            MadeLate state.scheduler after reusingOutput jobId) ∧
      connectorMeta.jobsToFlush = {2} := by
  have ran : (EventRuns.replay RunState.apply RunState.Permitted slideStart
      (slideEvents.take 9 ++ [.requestChanged (slideRequest 6)])).map (fun state =>
        (buildConnectorMeta state.scheduler reusingOutput).toOption.map fun built =>
          built.1.jobsToFlush) = some (some {2}) := by decide +kernel
  obtain ⟨state, reaches, seen⟩ := EventRuns.exists_of_replay ran
  obtain ⟨⟨connectorMeta, after⟩, built, flush⟩ := Option.map_eq_some_iff.mp seen
  have built : buildConnectorMeta state.scheduler reusingOutput = .ok (connectorMeta, after) := by
    cases result : buildConnectorMeta state.scheduler reusingOutput with
    | error problem =>
        rw [result] at built
        cases built
    | ok value =>
        rw [result] at built
        exact congrArg _ (Option.some.inj built)
  exact ⟨state, connectorMeta, after, flush_ids_exact reaches built, flush⟩

end KvOffload.FlushIds
