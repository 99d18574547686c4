import KvOffload.FenceRuns
import KvOffload.ArcPolicy

/-!
# Resets over whole runs

Between steps the only thing that can keep a reset from running are job ids that an earlier
reset has left to be flushed. The next step sends these ids to the workers.
-/

namespace KvOffload.ResetRuns

open KvOffload KvOffload.Base KvOffload.ConnectorConfig KvOffload.ConnectorRequests
open KvOffload.ManagerInterface KvOffload.ConnectorScheduler KvOffload.ConnectorLoads
open KvOffload.ConnectorStores KvOffload.ConnectorCompletion KvOffload.JobBooks
open KvOffload.ConnectorMoves KvOffload.ConnectorBuilds KvOffload.ConnectorRuns

set_option autoImplicit false

variable {M : Type}

/-- What a step gathers for its metadata, the store jobs apart. -/
def batch (scheduler : OffloadingConnectorScheduler M) :
    OrderedMap JobId TransferJob × Finset JobId × Finset Nat :=
  (scheduler.currentBatchLoadJobs, scheduler.currentBatchJobsToFlush,
    scheduler.currentBatchAllocatedBlockIds)

section Frames

variable {scheduler after : OffloadingConnectorScheduler M}

theorem fence_blocks_batch (jobId : JobId) (blockIds : List Nat)
    (scheduler : OffloadingConnectorScheduler M) :
    batch (scheduler.fenceBlocks jobId blockIds) = batch scheduler := by
  induction blockIds generalizing scheduler with
  | nil => rfl
  | cons blockId rest ih => exact ih (scheduler.fence jobId blockId)

theorem fence_deferred_batch (jobIds : List JobId) {scheduler : OffloadingConnectorScheduler M}
    (fenced : fenceDeferred scheduler jobIds = .ok after) : batch after = batch scheduler := by
  induction jobIds generalizing scheduler with
  | nil =>
      cases fenced
      rfl
  | cons jobId rest ih =>
      obtain ⟨job, _, fenced⟩ := bind_eq_ok.mp fenced
      exact (ih fenced).trans (fence_blocks_batch jobId _ scheduler)

theorem drop_fences_batch {jobId : JobId} {job : TransferJobStatus} {isFinished : Bool}
    (dropped : dropFences scheduler jobId job isFinished = .ok after) :
    batch after = batch scheduler := by
  rw [drop_fences_eq] at dropped
  split at dropped
  · cases dropped
    rfl
  · split at dropped
    · cases dropped
      rfl
    · cases dropped

theorem drop_job_batch {jobId : JobId} {reqId : ReqId} {status : RequestOffloadState}
    (dropped : dropJob scheduler jobId reqId status = .ok after) :
    batch after = batch scheduler := by
  unfold dropJob at dropped
  dsimp only at dropped
  split at dropped
  · split at dropped
    · cases dropped
      rfl
    · cases dropped
      rfl
  · cases dropped

variable [OffloadingManager M]

theorem get_num_batch {reqId : ReqId} {numComputedTokens : Nat}
    {answer : OffloadingConnectorScheduler.Matched}
    (called : scheduler.getNumNewMatchedTokens reqId numComputedTokens = .ok (answer, after)) :
    batch after = batch scheduler ∧ after.jobCounter = scheduler.jobCounter := by
  unfold OffloadingConnectorScheduler.getNumNewMatchedTokens at called
  obtain ⟨status, _, called⟩ := bind_eq_ok.mp called
  dsimp only at called
  split at called
  · cases called
    exact ⟨rfl, rfl⟩
  · split at called
    · cases called
      exact ⟨rfl, rfl⟩
    · split at called
      · cases called
        exact ⟨rfl, rfl⟩
      · obtain ⟨⟨numHitTokens, looked, manager⟩, _, answered⟩ := bind_eq_ok.mp called
        unfold OffloadingConnectorScheduler.answerHit at answered
        dsimp only at answered
        split at answered
        · cases answered
          exact ⟨rfl, rfl⟩
        · obtain ⟨last, _, answered⟩ := bind_eq_ok.mp answered
          generalize StaleHitLadder.StaleHit.climb _ _ _ _ _ = climbed at answered
          obtain ⟨fallsBack, climbed, clock⟩ := climbed
          dsimp only at answered
          split at answered
          · cases answered
            exact ⟨rfl, rfl⟩
          · cases answered
            exact ⟨rfl, rfl⟩

theorem report_job_batch {jobId : JobId} {count : Int}
    (reported : reportJob scheduler jobId count = .ok after) : batch after = batch scheduler := by
  obtain ⟨_, _, reported⟩ := bind_eq_ok.mp reported
  split at reported
  · cases reported
    rfl
  · obtain ⟨job, _, reported⟩ := bind_eq_ok.mp reported
    dsimp only at reported
    split at reported
    · cases reported
      rfl
    · obtain ⟨_, _, finished⟩ := bind_eq_ok.mp reported
      obtain ⟨status, _, finished⟩ := bind_eq_ok.mp finished
      obtain ⟨completed, call, finished⟩ := bind_eq_ok.mp finished
      obtain ⟨unfenced, removed, dropped⟩ := bind_eq_ok.mp finished
      rw [complete_transfer_eq] at call
      obtain ⟨manager, _, told_eq⟩ := map_eq_ok.mp call
      have first := drop_fences_batch removed
      rw [← told_eq] at first
      exact (drop_job_batch dropped).trans first

theorem update_output_batch (reports : List (JobId × Int))
    {scheduler : OffloadingConnectorScheduler M}
    (updated : updateConnectorOutput scheduler reports = .ok after) :
    batch after = batch scheduler := by
  induction reports generalizing scheduler with
  | nil =>
      cases updated
      rfl
  | cons entry rest ih =>
      obtain ⟨middle, reported, updated⟩ := bind_eq_ok.mp updated
      exact (ih updated).trans (report_job_batch reported)

theorem request_finished_batch {req : Request}
    (called : requestFinished scheduler req = .ok after) : batch after = batch scheduler := by
  unfold requestFinished at called
  split at called
  · obtain ⟨manager, _, called⟩ := bind_eq_ok.mp called
    cases called
    rfl
  · have kept := fence_deferred_batch _ called
    exact kept

/-- An allocation leaves the ids to flush alone. -/
theorem update_state_after_alloc_flush {reqId : ReqId} {blocks : List (List KVCacheBlock)}
    {numExternalTokens : Nat}
    (allocated : updateStateAfterAlloc scheduler reqId blocks numExternalTokens = .ok after) :
    after.currentBatchJobsToFlush = scheduler.currentBatchJobsToFlush ∧
      (numExternalTokens = 0 → after = scheduler) := by
  unfold updateStateAfterAlloc at allocated
  split at allocated
  · cases allocated
    exact ⟨rfl, fun _ => rfl⟩
  · rename_i external
    obtain ⟨status, _, allocated⟩ := bind_eq_ok.mp allocated
    obtain ⟨_, _, allocated⟩ := bind_eq_ok.mp allocated
    obtain ⟨plan, _, allocated⟩ := bind_eq_ok.mp allocated
    obtain ⟨⟨cpuBlockIds, manager⟩, _, allocated⟩ := bind_eq_ok.mp allocated
    obtain ⟨gpuSpec, _, allocated⟩ := bind_eq_ok.mp allocated
    obtain ⟨_, _, allocated⟩ := bind_eq_ok.mp allocated
    cases allocated
    exact ⟨rfl, fun zero => absurd zero external⟩

end Frames

section Flushes

variable {scheduler after : OffloadingConnectorScheduler M}

theorem record_all_blocks_flush (data : List ReqData)
    {scheduler : OffloadingConnectorScheduler M} {ends later : BlockIdEnds}
    (recorded : recordAllBlocks scheduler ends data = .ok (after, later)) :
    after.currentBatchJobsToFlush = scheduler.currentBatchJobsToFlush := by
  induction data generalizing scheduler ends with
  | nil =>
      cases recorded
      rfl
  | cons first rest ih =>
      obtain ⟨⟨middle, ends⟩, first, recorded⟩ := bind_eq_ok.mp recorded
      apply (ih recorded).trans
      obtain ⟨status, _, first⟩ := bind_eq_ok.mp first
      dsimp only at first
      split at first
      · cases first
        rfl
      · obtain ⟨extended, _, first⟩ := bind_eq_ok.mp first
        cases first
        rfl

theorem flush_preempted_grows (reqIds : List ReqId) {scheduler : OffloadingConnectorScheduler M}
    (flushed : flushPreempted scheduler reqIds = .ok after) :
    scheduler.currentBatchJobsToFlush ⊆ after.currentBatchJobsToFlush := by
  induction reqIds generalizing scheduler with
  | nil =>
      cases flushed
      exact subset_rfl
  | cons reqId rest ih =>
      unfold flushPreempted at flushed
      split at flushed
      · exact ih flushed
      · obtain ⟨_, _, flushed⟩ := bind_eq_ok.mp flushed
        exact Finset.subset_union_left.trans (ih flushed)

theorem enter_job_batch (build : StoreBuild M) (reqId : ReqId) (status : RequestOffloadState)
    (gpuSpec : GPULoadStoreSpec) (output : PrepareStoreOutput) (fenced deferred : List Nat) :
    batch (build.enterJob reqId status gpuSpec output fenced deferred).scheduler =
      batch build.scheduler := by
  unfold StoreBuild.enterJob OffloadingConnectorScheduler.generateJobId
  exact fence_blocks_batch _ fenced _

variable [OffloadingManager M] {build done : StoreBuild M}

theorem store_partial_tail_batch {reqId : ReqId} {status : RequestOffloadState}
    {entries : List PartialTailOffload} {boundary : Nat}
    (stored : storePartialTail build reqId status entries boundary = .ok done) :
    batch done.scheduler = batch build.scheduler := by
  obtain ⟨keys, _, stored⟩ := bind_eq_ok.mp stored
  obtain ⟨_, _, stored⟩ := bind_eq_ok.mp stored
  obtain ⟨⟨output, manager⟩, _, stored⟩ := bind_eq_ok.mp stored
  cases output with
  | none =>
      cases stored
      rfl
  | some output =>
      dsimp only at stored
      split at stored
      · cases stored
        rfl
      · obtain ⟨accepted, _, stored⟩ := bind_eq_ok.mp stored
        obtain ⟨gpuSpec, _, stored⟩ := bind_eq_ok.mp stored
        cases stored
        exact enter_job_batch _ reqId status gpuSpec output _ []

theorem build_partial_tail_jobs_batch (handoffs : List (ReqId × List PartialTailOffload))
    {build : StoreBuild M} (built : buildPartialTailJobs build handoffs = .ok done) :
    batch done.scheduler = batch build.scheduler := by
  induction handoffs generalizing build with
  | nil =>
      cases built
      rfl
  | cons handoff rest ih =>
      obtain ⟨reqId, entries⟩ := handoff
      obtain ⟨middle, stored, built⟩ := bind_eq_ok.mp built
      apply (ih built).trans
      unfold partialTailJob at stored
      dsimp only at stored
      split at stored
      · obtain ⟨_, _, stored⟩ := bind_eq_ok.mp stored
        obtain ⟨_, _, stored⟩ := bind_eq_ok.mp stored
        obtain ⟨_, _, stored⟩ := bind_eq_ok.mp stored
        obtain ⟨_, _, stored⟩ := bind_eq_ok.mp stored
        obtain ⟨_, _, stored⟩ := bind_eq_ok.mp stored
        obtain ⟨_, _, stored⟩ := bind_eq_ok.mp stored
        split at stored
        · cases stored
          rfl
        · exact store_partial_tail_batch stored
      · cases stored

theorem store_accepted_flush {reqId : ReqId} {offering : Offering} {output : PrepareStoreOutput}
    (stored : storeAccepted build reqId offering output = .ok done) :
    build.scheduler.currentBatchJobsToFlush ⊆ done.scheduler.currentBatchJobsToFlush := by
  obtain ⟨manager, _, stored⟩ := bind_eq_ok.mp stored
  obtain ⟨gpuSpec, _, stored⟩ := bind_eq_ok.mp stored
  obtain ⟨_, _, stored⟩ := bind_eq_ok.mp stored
  have entered := enter_job_batch (build.withScheduler (build.scheduler.withManager manager))
    reqId (offering.status.advanceStoredIdx offering.config offering.numOffloadableTokens)
    gpuSpec output (fencedIds offering output.keysToStore)
    (deferredIds offering output.keysToStore)
  dsimp only at stored
  split at stored
  · cases stored
    have fencing := (fence_blocks_batch build.scheduler.jobCounter
      (deferredIds offering output.keysToStore) _).trans entered
    have flush := congrArg (fun batch => batch.2.1) fencing
    dsimp only [batch] at flush
    split
    · exact flush.symm.subset.trans (Finset.subset_insert _ _)
    · exact flush.symm.subset
  · cases stored
    exact (congrArg (fun batch => batch.2.1) entered).symm.subset

theorem store_request_flush {output : SchedulerOutput} {reqId : ReqId}
    (stored : storeRequest output build reqId = .ok done) :
    build.scheduler.currentBatchJobsToFlush ⊆ done.scheduler.currentBatchJobsToFlush := by
  unfold storeRequest at stored
  split at stored
  · cases stored
    exact subset_rfl
  · obtain ⟨numTokens, _, stored⟩ := bind_eq_ok.mp stored
    obtain ⟨offers, _, stored⟩ := bind_eq_ok.mp stored
    unfold storeOffers at stored
    dsimp only at stored
    split at stored
    · cases stored
      exact subset_rfl
    · obtain ⟨⟨accepted, manager⟩, _, stored⟩ := bind_eq_ok.mp stored
      cases accepted with
      | none =>
          cases stored
          exact subset_rfl
      | some accepted =>
          dsimp only at stored
          split at stored
          · cases stored
            exact subset_rfl
          · have grown := store_accepted_flush stored
            exact grown

theorem store_requests_flush {output : SchedulerOutput} (reqIds : List ReqId)
    {build : StoreBuild M} (stored : storeRequests output build reqIds = .ok done) :
    build.scheduler.currentBatchJobsToFlush ⊆ done.scheduler.currentBatchJobsToFlush := by
  induction reqIds generalizing build with
  | nil =>
      cases stored
      exact subset_rfl
  | cons reqId rest ih =>
      obtain ⟨middle, first, stored⟩ := bind_eq_ok.mp stored
      exact (store_request_flush first).trans (ih stored)

/-- The ids that wait to be flushed are in the metadata of the next step. -/
theorem build_meta_flushes {output : SchedulerOutput}
    {connectorMeta : OffloadingConnectorMetadata}
    (built : buildConnectorMeta scheduler output = .ok (connectorMeta, after)) :
    scheduler.currentBatchJobsToFlush ⊆ connectorMeta.jobsToFlush := by
  rw [build_connector_meta_eq] at built
  obtain ⟨build, jobs, built⟩ := bind_eq_ok.mp built
  obtain ⟨signaled, _, built⟩ := bind_eq_ok.mp built
  cases built
  obtain ⟨updated, recorded, jobs⟩ := bind_eq_ok.mp jobs
  obtain ⟨manager, _, jobs⟩ := bind_eq_ok.mp jobs
  obtain ⟨flushed, flushing, jobs⟩ := bind_eq_ok.mp jobs
  obtain ⟨tails, tail, stored⟩ := bind_eq_ok.mp jobs
  have first : updated.currentBatchJobsToFlush = scheduler.currentBatchJobsToFlush := by
    obtain ⟨⟨recording, ends⟩, recordings, recorded⟩ := bind_eq_ok.mp recorded
    cases recorded
    have kept := record_all_blocks_flush _ recordings
    exact kept
  have second := flush_preempted_grows _ flushing
  have third : flushed.currentBatchJobsToFlush ⊆
      (drainFlushJobs (flushReallocated flushed)).currentBatchJobsToFlush :=
    Finset.subset_union_left.trans Finset.subset_union_left
  have fourth : (drainFlushJobs (flushReallocated flushed)).currentBatchJobsToFlush =
      tails.scheduler.currentBatchJobsToFlush := by
    unfold buildPartialTailStoreJobs at tail
    split at tail
    · exact (congrArg (fun batch => batch.2.1) (build_partial_tail_jobs_batch _ tail)).symm
    · cases tail
      rfl
  rw [← first]
  exact second.trans (third.trans (fourth.subset.trans (store_requests_flush _ stored)))

theorem build_meta_clears {output : SchedulerOutput}
    {connectorMeta : OffloadingConnectorMetadata}
    (built : buildConnectorMeta scheduler output = .ok (connectorMeta, after)) :
    batch after = (OrderedMap.empty, ∅, ∅) := by
  rw [build_connector_meta_eq] at built
  obtain ⟨build, _, built⟩ := bind_eq_ok.mp built
  obtain ⟨signaled, _, built⟩ := bind_eq_ok.mp built
  cases built
  rfl

end Flushes

section Again

variable {scheduler : OffloadingConnectorScheduler M}

theorem erase_finished_none {entries : List (ReqId × RequestOffloadState)}
    (active : ∀ entry ∈ entries, entry.2.req.isFinished = false)
    (statuses : OrderedMap ReqId RequestOffloadState) :
    eraseFinished entries statuses = statuses := by
  induction entries generalizing statuses with
  | nil => rfl
  | cons entry rest ih =>
      obtain ⟨first, later⟩ := List.forall_mem_cons.mp active
      unfold eraseFinished
      rw [List.foldl_cons, first]
      exact ih later statuses

/-- A reset leaves only active requests. -/
theorem after_reset_active (scheduler : OffloadingConnectorScheduler M) (manager : M) :
    ∀ entry ∈ (afterReset scheduler manager).reqStatus.entries,
      entry.2.req.isFinished = false := by
  intro entry member
  obtain ⟨⟨reqId, status⟩, kept, rfl⟩ := List.mem_map.mp member
  have found := (OrderedMap.get_eq_some_iff _ _ _).mpr kept
  rw [get_erase_finished] at found
  split at found
  · cases found
  · rename_i active
    have present := (OrderedMap.get_eq_some_iff _ _ _).mp found
    by_contra finished
    exact active ⟨_, present, rfl, by simpa [resetStatus, RequestOffloadState.mapGroups]
      using finished⟩

theorem after_reset_unsent (scheduler : OffloadingConnectorScheduler M) (manager : M) :
    ConnectorMoves.unsent (afterReset scheduler manager).reqStatus.entries = [] := by
  unfold ConnectorMoves.unsent
  rw [List.filter_eq_nil_iff]
  intro entry member
  simp [after_reset_active scheduler manager entry member]

theorem keys_empty_iff (map : OrderedMap JobId TransferJobStatus) :
    map.keys.toFinset = ∅ ↔ map.keys = [] := List.toFinset_eq_empty_iff _

theorem map_values_again (statuses : OrderedMap ReqId RequestOffloadState) :
    (statuses.mapValues fun _ status => resetStatus status).mapValues
        (fun _ status => resetStatus status) =
      statuses.mapValues fun _ status => resetStatus status := by
  apply OrderedMap.ext_entries
  simp [OrderedMap.mapValues, resetStatus, RequestOffloadState.mapGroups]

/-- A reset changes only the manager where nothing is left to reset. -/
theorem after_reset_of_settled {once : OffloadingConnectorScheduler M}
    (active : ∀ entry ∈ once.reqStatus.entries, entry.2.req.isFinished = false)
    (statuses : (once.reqStatus.mapValues fun _ status => resetStatus status) = once.reqStatus)
    (flush : once.currentBatchJobsToFlush = ∅) (threshold : once.staleJobThreshold = once.jobCounter)
    (jobs : once.jobs = OrderedMap.empty) (fences : once.blockIdToPendingJobs = OrderedMap.empty)
    (loading : (once.chunksBeingLoaded.map fun _ => ∅) = once.chunksBeingLoaded) (manager : M) :
    afterReset once manager = once.withManager manager := by
  cases once
  dsimp only at active statuses flush threshold jobs fences loading
  subst flush threshold jobs fences
  unfold afterReset forgetJobs OffloadingConnectorScheduler.withManager
  dsimp only
  rw [erase_finished_none active, statuses, loading]
  rfl

/-- After a reset with no job in flight another one changes the manager only. -/
theorem after_reset_again (idle : scheduler.jobs.keys = []) (manager later : M) :
    afterReset (afterReset scheduler manager) later =
      (afterReset scheduler manager).withManager later := by
  apply after_reset_of_settled
  · exact after_reset_active scheduler manager
  · exact map_values_again _
  · exact (keys_empty_iff _).mpr idle
  · rfl
  · rfl
  · rfl
  · change (Option.map _ (scheduler.chunksBeingLoaded.map _)) = scheduler.chunksBeingLoaded.map _
    rw [Option.map_map]
    rfl

variable [OffloadingManager M]

theorem reset_manager_again (scheduler : OffloadingConnectorScheduler M) (manager : M) :
    resetManager (afterReset scheduler manager) = OffloadingManager.resetCache manager := by
  unfold resetManager
  rw [after_reset_unsent]
  rfl

theorem reset_outcome {once : OffloadingConnectorScheduler M}
    (reset : resetCache scheduler = .ok once) :
    Idle scheduler ∧ ∃ manager, resetManager scheduler = .ok manager ∧
      once = afterReset scheduler manager := by
  have idle := idle_of_reset reset
  rw [reset_cache_eq idle] at reset
  obtain ⟨manager, call, same⟩ := map_eq_ok.mp reset
  exact ⟨idle, manager, call, same.symm⟩

/-- A second reset is the first one exactly when no job was in flight and the manager's own
reset leaves the manager as it is. -/
theorem reset_twice {once : OffloadingConnectorScheduler M}
    (reset : resetCache scheduler = .ok once) :
    resetCache once = .ok once ↔
      scheduler.jobs.keys = [] ∧ OffloadingManager.resetCache once.manager = .ok once.manager := by
  obtain ⟨idle, manager, _, rfl⟩ := reset_outcome reset
  have flush : (afterReset scheduler manager).currentBatchJobsToFlush = ∅ ↔
      scheduler.jobs.keys = [] := keys_empty_iff _
  by_cases none : scheduler.jobs.keys = []
  · have again : Idle (afterReset scheduler manager) := ⟨idle.1, flush.mpr none, idle.2.2⟩
    rw [reset_cache_eq again, reset_manager_again]
    constructor
    · intro twice
      obtain ⟨later, call, same⟩ := map_eq_ok.mp twice
      have managers := congrArg OffloadingConnectorScheduler.manager same
      have kept : later = manager := managers
      exact ⟨none, kept ▸ call⟩
    · rintro ⟨_, call⟩
      have call : OffloadingManager.resetCache manager = .ok manager := call
      rw [call]
      exact congrArg Except.ok (after_reset_again none manager manager)
  · have busy : ¬Idle (afterReset scheduler manager) := fun again => none (flush.mp again.2.1)
    rw [reset_cache_raises busy]
    constructor
    · intro twice
      cases twice
    · exact fun quiet => absurd quiet.1 none

end Again

section Runs

variable [OffloadingManager M]

/-- Between steps a step has gathered nothing but the ids of the jobs that were in flight at
resets. -/
structure BatchInv (state : RunState M) : Prop where
  flush : state.scheduler.currentBatchJobsToFlush = state.unsent
  between : state.stepping = false →
    state.scheduler.currentBatchLoadJobs.entries.isEmpty = true ∧
      state.scheduler.currentBatchAllocatedBlockIds = ∅

omit [OffloadingManager M] in
theorem batch_inv_of_batch {state after : RunState M} (inv : BatchInv state)
    (same : batch after.scheduler = batch state.scheduler) (unsent : after.unsent = state.unsent)
    (stepping : after.stepping = state.stepping) : BatchInv after := by
  simp only [batch, Prod.mk.injEq] at same
  obtain ⟨loads, flush, allocated⟩ := same
  refine ⟨flush.trans (inv.flush.trans unsent.symm), fun between => ?_⟩
  rw [loads, allocated]
  exact inv.between (stepping ▸ between)

theorem apply_batch_inv {state after : RunState M} (inv : BatchInv state)
    {event : ConnectorEvent} (applied : state.apply event = .ok after) : BatchInv after := by
  cases event with
  | newRequest req =>
      cases applied
      exact batch_inv_of_batch inv rfl rfl rfl
  | requestChanged req =>
      cases applied
      exact batch_inv_of_batch inv rfl rfl rfl
  | getNumNewMatchedTokens reqId numComputedTokens =>
      obtain ⟨⟨answer, scheduler⟩, called, applied⟩ := bind_eq_ok.mp applied
      cases applied
      exact batch_inv_of_batch inv (get_num_batch called).1 rfl rfl
  | updateStateAfterAlloc reqId blocks numExternalTokens =>
      obtain ⟨scheduler, called, applied⟩ := bind_eq_ok.mp applied
      cases applied
      obtain ⟨flush, local_⟩ := update_state_after_alloc_flush called
      refine ⟨flush.trans inv.flush, fun between => ?_⟩
      rw [Bool.or_eq_false_iff, decide_eq_false_iff_not, not_not] at between
      rw [local_ between.2]
      exact inv.between between.1
  | buildConnectorMeta output =>
      obtain ⟨⟨connectorMeta, scheduler⟩, called, applied⟩ := bind_eq_ok.mp applied
      cases applied
      have cleared := build_meta_clears called
      simp only [batch, Prod.mk.injEq] at cleared
      exact ⟨cleared.2.1, fun _ => ⟨by rw [cleared.1]; rfl, cleared.2.2⟩⟩
  | updateConnectorOutput completedJobs =>
      obtain ⟨scheduler, called, applied⟩ := bind_eq_ok.mp applied
      cases applied
      exact batch_inv_of_batch inv (update_output_batch completedJobs called) rfl rfl
  | requestFinished req =>
      obtain ⟨scheduler, called, applied⟩ := bind_eq_ok.mp applied
      cases applied
      exact batch_inv_of_batch inv (request_finished_batch called) rfl rfl
  | resetCache =>
      obtain ⟨scheduler, called, applied⟩ := bind_eq_ok.mp applied
      cases applied
      obtain ⟨idle, manager, _, rfl⟩ := reset_outcome called
      refine ⟨?_, fun _ => ⟨idle.1, idle.2.2⟩⟩
      have none : state.unsent = ∅ := inv.flush.symm.trans idle.2.1
      change state.scheduler.jobs.keys.toFinset = state.unsent ∪ _
      rw [none, Finset.empty_union]

theorem reached_batch_inv {config : SchedulerOffloadConfig} {settings : ConnectorSettings}
    {mambaAlignSize : Option Nat} {manager : M} {clock : StaleHitLadder.Clock}
    {state : RunState M}
    (reaches : EventRuns.Reaches RunState.apply RunState.Permitted
      (RunState.start config settings mambaAlignSize manager clock) state) : BatchInv state := by
  apply EventRuns.reaches_invariant ?_ ?_ reaches
  · exact fun before event after inv _ applied => apply_batch_inv inv applied
  · exact ⟨rfl, fun _ => ⟨rfl, rfl⟩⟩

omit [OffloadingManager M] in
/-- Between steps only ids that wait to be flushed keep a reset from running. -/
theorem idle_iff_sent {state : RunState M} (inv : BatchInv state)
    (between : state.stepping = false) : Idle state.scheduler ↔ state.unsent = ∅ := by
  obtain ⟨loads, allocated⟩ := inv.between between
  constructor
  · exact fun idle => inv.flush.symm.trans idle.2.1
  · exact fun none => ⟨loads, inv.flush.trans none, allocated⟩

theorem reset_returns_iff {state : RunState M} (inv : BatchInv state)
    (between : state.stepping = false) :
    (∃ once, resetCache state.scheduler = .ok once) ↔
      state.unsent = ∅ ∧ ∃ manager, resetManager state.scheduler = .ok manager := by
  by_cases idle : Idle state.scheduler
  · rw [reset_cache_eq idle]
    constructor
    · rintro ⟨once, reset⟩
      obtain ⟨manager, call, _⟩ := map_eq_ok.mp reset
      exact ⟨(idle_iff_sent inv between).mp idle, manager, call⟩
    · rintro ⟨_, manager, call⟩
      exact ⟨_, map_eq_ok.mpr ⟨manager, call, rfl⟩⟩
  · rw [reset_cache_raises idle]
    constructor
    · rintro ⟨once, reset⟩
      cases reset
    · rintro ⟨none, _⟩
      exact absurd ((idle_iff_sent inv between).mpr none) idle

end Runs

section CpuResets

open KvOffload.PolicyInterface KvOffload.CpuManager

variable {P : Type} [CachePolicy P]

theorem finish_all_cpu (contexts : List ReqContext) (manager : CPUOffloadingManager P) :
    finishAll manager contexts = .ok manager := by
  induction contexts with
  | nil => rfl
  | cons reqContext rest ih => exact ih

omit [CachePolicy P] in
theorem reset_events_nil (manager : CPUOffloadingManager P) : manager.resetEvents [] = manager := by
  unfold CPUOffloadingManager.resetEvents
  rfl

theorem cpu_reset_of_settled {manager : CPUOffloadingManager P}
    (none : CachePolicy.storedKeys manager.policy = [])
    (cleared : CachePolicy.clear manager.policy = manager.policy)
    (evictable : manager.numEvictableCacheBlocks = 0) (pending : manager.numWritePendingBlocks = 0)
    (free : manager.freeList = []) (allocated : manager.numAllocatedBlocks = 0) :
    manager.resetCache = manager := by
  unfold CPUOffloadingManager.resetCache
  rw [none, reset_events_nil]
  dsimp only
  rw [cleared]
  cases manager
  dsimp only at evictable pending free allocated
  subst evictable pending free allocated
  rfl

/-- The calls of a reset to a CPU manager return, and a reset CPU manager is settled. -/
theorem cpu_resets (settled : ∀ policy : P, CachePolicy.storedKeys (CachePolicy.clear policy) = [] ∧
      CachePolicy.clear (CachePolicy.clear policy) = CachePolicy.clear policy)
    (scheduler : OffloadingConnectorScheduler (CPUOffloadingManager P)) :
    ∃ manager, resetManager scheduler = .ok manager ∧
      OffloadingManager.resetCache manager = .ok manager := by
  refine ⟨scheduler.manager.resetCache, ?_, ?_⟩
  · unfold resetManager
    rw [finish_all_cpu]
    rfl
  · obtain ⟨none, again⟩ := settled (scheduler.manager.resetEvents
      (CachePolicy.storedKeys scheduler.manager.policy)).policy
    exact congrArg Except.ok (cpu_reset_of_settled none again rfl rfl rfl rfl)

theorem lru_settled (policy : LruPolicy.LRUCachePolicy) :
    CachePolicy.storedKeys (CachePolicy.clear policy) = [] ∧
      CachePolicy.clear (CachePolicy.clear policy) = CachePolicy.clear policy :=
  ⟨rfl, rfl⟩

theorem arc_settled (policy : ArcPolicy.ARCCachePolicy) :
    CachePolicy.storedKeys (CachePolicy.clear policy) = [] ∧
      CachePolicy.clear (CachePolicy.clear policy) = CachePolicy.clear policy :=
  ⟨rfl, rfl⟩

end CpuResets

/-- A reset with the first chunk's job in flight returns, and a second one right after it
raises. -/
theorem second_reset_raises :
    ∃ state once, EventRuns.Reaches RunState.apply RunState.Permitted FenceRuns.slideStart state ∧
      state.stepping = false ∧ state.scheduler.jobs.keys = [0] ∧
      resetCache state.scheduler = .ok once ∧ resetCache once = .error .assertionError := by
  have ran : (EventRuns.replay RunState.apply RunState.Permitted FenceRuns.slideStart
      (FenceRuns.slideEvents.take 3)).map (fun state => (state.stepping,
        state.scheduler.jobs.keys, match resetCache state.scheduler with
        | .ok once => raised (resetCache once)
        | .error _ => none)) = some (false, [0], some .assertionError) := by decide +kernel
  obtain ⟨state, reaches, seen⟩ := EventRuns.exists_of_replay ran
  simp only [Prod.mk.injEq] at seen
  obtain ⟨between, jobs, again⟩ := seen
  cases reset : resetCache state.scheduler with
  | error problem => simp [reset] at again
  | ok once =>
      rw [reset] at again
      exact ⟨state, once, reaches, between, jobs, reset, raised_eq_some.mp again⟩

end KvOffload.ResetRuns
