import KvOffload.ResetRuns
import KvOffload.TransferRecords

/-!
# What the workers are sent

Every job of a step's metadata carries the CPU blocks of the transfer that was prepared under
its id. Loads are gathered as blocks are allocated, stores while the step is built.
-/

namespace KvOffload.SentRecords

open KvOffload KvOffload.Base KvOffload.ConnectorConfig KvOffload.ConnectorRequests
open KvOffload.ManagerInterface KvOffload.ConnectorScheduler KvOffload.ConnectorLoads
open KvOffload.ConnectorStores KvOffload.LookupCalls KvOffload.JobBooks
open KvOffload.ConnectorMoves KvOffload.ConnectorBuilds KvOffload.ResetRuns
open KvOffload.TransferRecords

set_option autoImplicit false

variable {M : Type}

/-- The jobs carry the blocks of the transfers that are recorded under their ids. -/
def Records (prepared : List Prepared) (isStore : Bool) (jobs : OrderedMap JobId TransferJob) :
    Prop :=
  ∀ jobId job, jobs.get? jobId = some job →
    ∃ keys, prepared[jobId]? = some ⟨isStore, keys, job.cpuBlockIds⟩

theorem records_empty (prepared : List Prepared) (isStore : Bool) :
    Records prepared isStore OrderedMap.empty := by
  intro jobId job found
  cases found

theorem records_append {prepared : List Prepared} {isStore : Bool}
    {jobs : OrderedMap JobId TransferJob} (records : Records prepared isStore jobs)
    (later : List Prepared) : Records (prepared ++ later) isStore jobs := by
  intro jobId job found
  obtain ⟨keys, entry⟩ := records jobId job found
  exact ⟨keys, earlier_entry entry later⟩

theorem records_set {prepared : List Prepared} {isStore : Bool}
    {jobs : OrderedMap JobId TransferJob} (records : Records prepared isStore jobs)
    (keys : List OffloadKey) (job : TransferJob) :
    Records (prepared ++ [⟨isStore, keys, job.cpuBlockIds⟩]) isStore
      (jobs.set prepared.length job) := by
  intro jobId other found
  rw [OrderedMap.get_set] at found
  split at found
  · rename_i same
    cases found
    rw [same]
    exact ⟨keys, List.getElem?_concat_length⟩
  · exact records_append records _ jobId other found

/-- The step so far agrees with the records; ids are counted by the transfers, and each belongs to
a job that was sent or is gathered. -/
structure Linked (sent : JobId → Prop) (scheduler : OffloadingConnectorScheduler (Keeper M))
    (storeJobs : OrderedMap JobId TransferJob) : Prop where
  counted : (prepared scheduler.manager).length = scheduler.jobCounter
  loads : Records (prepared scheduler.manager) false scheduler.currentBatchLoadJobs
  stores : Records (prepared scheduler.manager) true storeJobs
  gathered : ∀ jobId < scheduler.jobCounter, sent jobId ∨
    jobId ∈ scheduler.currentBatchLoadJobs.keys ∨ jobId ∈ storeJobs.keys

theorem mem_keys_set {jobs : OrderedMap JobId TransferJob} {jobId other : JobId}
    (transfer : TransferJob) (member : jobId ∈ jobs.keys ∨ jobId = other) :
    jobId ∈ (jobs.set other transfer).keys := by
  rw [OrderedMap.mem_keys_iff, OrderedMap.get_set]
  split
  · rfl
  · rename_i differs
    exact (OrderedMap.mem_keys_iff _ _).mp (member.resolve_right differs)

section Frames

variable {sent : JobId → Prop} {scheduler after : OffloadingConnectorScheduler (Keeper M)}
  {storeJobs : OrderedMap JobId TransferJob}

theorem linked_of_same (linked : Linked sent scheduler storeJobs)
    (recorded : prepared after.manager = prepared scheduler.manager)
    (counter : after.jobCounter = scheduler.jobCounter)
    (loads : after.currentBatchLoadJobs = scheduler.currentBatchLoadJobs) :
    Linked sent after storeJobs := by
  refine ⟨?_, ?_, ?_, ?_⟩
  · rw [recorded, counter]
    exact linked.counted
  · rw [recorded, loads]
    exact linked.loads
  · rw [recorded]
    exact linked.stores
  · rw [counter, loads]
    exact linked.gathered

/-- A call that leaves the books of the connector alone. -/
theorem linked_of_desk (linked : Linked sent scheduler storeJobs) (same : desk after = desk scheduler)
    (loads : after.currentBatchLoadJobs = scheduler.currentBatchLoadJobs) :
    Linked sent after storeJobs := by
  have manager : after.manager = scheduler.manager := congrArg Desk.manager same
  have counter : after.jobCounter = scheduler.jobCounter := congrArg Desk.jobCounter same
  exact linked_of_same linked (congrArg prepared manager) counter loads

theorem linked_with_manager (linked : Linked sent scheduler storeJobs) {manager : Keeper M}
    (recorded : prepared manager = prepared scheduler.manager) :
    Linked sent (scheduler.withManager manager) storeJobs :=
  linked_of_same linked recorded rfl rfl

theorem record_all_blocks_loads (data : List ReqData)
    {scheduler : OffloadingConnectorScheduler (Keeper M)} {ends later : BlockIdEnds}
    (recorded : recordAllBlocks scheduler ends data = .ok (after, later)) :
    after.currentBatchLoadJobs = scheduler.currentBatchLoadJobs := by
  induction data generalizing scheduler ends with
  | nil =>
      cases recorded
      rfl
  | cons first rest ih =>
      obtain ⟨⟨middle, ends⟩, first, recorded⟩ := bind_eq_ok.mp recorded
      apply (ih recorded).trans
      obtain ⟨status, _, first⟩ := bind_eq_ok.mp first
      dsimp only at first
      split at first
      · cases first
        rfl
      · obtain ⟨extended, _, first⟩ := bind_eq_ok.mp first
        cases first
        rfl

theorem flush_preempted_loads (reqIds : List ReqId)
    {scheduler : OffloadingConnectorScheduler (Keeper M)}
    (flushed : flushPreempted scheduler reqIds = .ok after) :
    after.currentBatchLoadJobs = scheduler.currentBatchLoadJobs := by
  induction reqIds generalizing scheduler with
  | nil =>
      cases flushed
      rfl
  | cons reqId rest ih =>
      unfold flushPreempted at flushed
      split at flushed
      · exact ih flushed
      · obtain ⟨_, _, flushed⟩ := bind_eq_ok.mp flushed
        have later := ih flushed
        exact later

/-- The store that was prepared last enters the step. -/
theorem linked_enter {build : StoreBuild (Keeper M)} {before : List Prepared}
    {output : PrepareStoreOutput} (counted : before.length = build.scheduler.jobCounter)
    (loads : Records before false build.scheduler.currentBatchLoadJobs)
    (stores : Records before true build.storeJobs)
    (gathered : ∀ jobId < build.scheduler.jobCounter, sent jobId ∨
      jobId ∈ build.scheduler.currentBatchLoadJobs.keys ∨ jobId ∈ build.storeJobs.keys)
    (recorded : prepared build.scheduler.manager =
      before ++ [⟨true, output.keysToStore, output.storeSpec⟩])
    (reqId : ReqId) (status : RequestOffloadState) (gpuSpec : GPULoadStoreSpec)
    (fenced deferred : List Nat) :
    Linked sent (build.enterJob reqId status gpuSpec output fenced deferred).scheduler
      (build.enterJob reqId status gpuSpec output fenced deferred).storeJobs := by
  have entered := enter_job_desk build reqId status gpuSpec output fenced deferred
  have manager : (build.enterJob reqId status gpuSpec output fenced deferred).scheduler.manager =
      build.scheduler.manager := congrArg Desk.manager entered
  have counter : (build.enterJob reqId status gpuSpec output fenced
      deferred).scheduler.jobCounter = build.scheduler.jobCounter + 1 :=
    congrArg Desk.jobCounter entered
  have batched := enter_job_batch build reqId status gpuSpec output fenced deferred
  have loadJobs : (build.enterJob reqId status gpuSpec output fenced
      deferred).scheduler.currentBatchLoadJobs = build.scheduler.currentBatchLoadJobs :=
    congrArg (fun batch => batch.1) batched
  refine ⟨?_, ?_, ?_, ?_⟩
  · rw [manager, recorded, counter, ← counted]
    exact List.length_append
  · rw [manager, recorded, loadJobs]
    exact records_append loads _
  · rw [manager, recorded]
    show Records _ true (build.storeJobs.set build.scheduler.jobCounter _)
    rw [← counted]
    exact records_set stores output.keysToStore ⟨reqId, gpuSpec, output.storeSpec⟩
  · rw [counter, loadJobs]
    intro jobId below
    show _ ∨ _ ∨ jobId ∈ (build.storeJobs.set build.scheduler.jobCounter _).keys
    rcases Nat.lt_succ_iff_lt_or_eq.mp below with earlier | isNew
    · exact (gathered jobId earlier).imp_right fun here => here.imp_right fun store =>
        mem_keys_set _ (.inl store)
    · exact .inr (.inr (mem_keys_set _ (.inr isNew)))

end Frames

section Builds

variable [OffloadingManager M] {sent : JobId → Prop}
  {scheduler after : OffloadingConnectorScheduler (Keeper M)} {build done : StoreBuild (Keeper M)}

theorem asked_recorded {reqContext : ReqContext} {manager last : Keeper M}
    (asked : Asked reqContext manager last) : Unrecorded manager last := by
  induction asked with
  | refl => exact unrecorded_refl manager
  | tail _ step ih =>
      cases step with
      | looked call => exact unrecorded_trans ih (lookup_recorded call).2
      | touched _ => exact unrecorded_trans ih ⟨rfl, rfl⟩

theorem store_partial_tail_linked {reqId : ReqId} {status : RequestOffloadState}
    {entries : List PartialTailOffload} {boundary : Nat}
    (linked : Linked sent build.scheduler build.storeJobs)
    (stored : storePartialTail build reqId status entries boundary = .ok done) :
    Linked sent done.scheduler done.storeJobs := by
  obtain ⟨keys, _, stored⟩ := bind_eq_ok.mp stored
  obtain ⟨_, _, stored⟩ := bind_eq_ok.mp stored
  obtain ⟨⟨output, manager⟩, call, stored⟩ := bind_eq_ok.mp stored
  have recorded := (prepare_store_recorded call).2.1
  cases output with
  | none =>
      cases stored
      exact linked_with_manager linked (recorded.trans (List.append_nil _))
  | some output =>
      dsimp only at stored
      split at stored
      · rename_i nothing
        cases stored
        rw [TransferLog.accepted, if_pos nothing, List.append_nil] at recorded
        exact linked_with_manager linked recorded
      · rename_i something
        obtain ⟨accepted, _, stored⟩ := bind_eq_ok.mp stored
        obtain ⟨gpuSpec, _, stored⟩ := bind_eq_ok.mp stored
        cases stored
        rw [TransferLog.accepted, if_neg something] at recorded
        exact @linked_enter M sent (build.withScheduler (build.scheduler.withManager manager)) _
          output linked.counted linked.loads linked.stores linked.gathered recorded reqId status
          gpuSpec _ _

theorem build_partial_tail_jobs_linked (handoffs : List (ReqId × List PartialTailOffload))
    {build : StoreBuild (Keeper M)} (linked : Linked sent build.scheduler build.storeJobs)
    (built : buildPartialTailJobs build handoffs = .ok done) :
    Linked sent done.scheduler done.storeJobs := by
  induction handoffs generalizing build with
  | nil =>
      cases built
      exact linked
  | cons handoff rest ih =>
      obtain ⟨reqId, entries⟩ := handoff
      obtain ⟨middle, stored, built⟩ := bind_eq_ok.mp built
      apply ih _ built
      unfold partialTailJob at stored
      dsimp only at stored
      split at stored
      · obtain ⟨_, _, stored⟩ := bind_eq_ok.mp stored
        obtain ⟨_, _, stored⟩ := bind_eq_ok.mp stored
        obtain ⟨_, _, stored⟩ := bind_eq_ok.mp stored
        obtain ⟨_, _, stored⟩ := bind_eq_ok.mp stored
        obtain ⟨_, _, stored⟩ := bind_eq_ok.mp stored
        obtain ⟨_, _, stored⟩ := bind_eq_ok.mp stored
        split at stored
        · cases stored
          exact linked
        · exact store_partial_tail_linked linked stored
      · cases stored

theorem store_accepted_linked {reqId : ReqId} {offering : Offering} {output : PrepareStoreOutput}
    {before : List Prepared} (counted : before.length = build.scheduler.jobCounter)
    (loads : Records before false build.scheduler.currentBatchLoadJobs)
    (stores : Records before true build.storeJobs)
    (gathered : ∀ jobId < build.scheduler.jobCounter, sent jobId ∨
      jobId ∈ build.scheduler.currentBatchLoadJobs.keys ∨ jobId ∈ build.storeJobs.keys)
    (recorded : prepared build.scheduler.manager =
      before ++ [⟨true, output.keysToStore, output.storeSpec⟩])
    (stored : storeAccepted build reqId offering output = .ok done) :
    Linked sent done.scheduler done.storeJobs := by
  obtain ⟨manager, touched, stored⟩ := bind_eq_ok.mp stored
  obtain ⟨gpuSpec, _, stored⟩ := bind_eq_ok.mp stored
  obtain ⟨_, _, stored⟩ := bind_eq_ok.mp stored
  have kept := (asked_recorded (touch_asked offering.status.reqContext touched)).prepared
  have entered := @linked_enter M sent (build.withScheduler (build.scheduler.withManager manager))
    before output counted loads stores gathered (kept.trans recorded) reqId
    (offering.status.advanceStoredIdx offering.config offering.numOffloadableTokens) gpuSpec
    (fencedIds offering output.keysToStore) (deferredIds offering output.keysToStore)
  dsimp only at stored
  split at stored
  · cases stored
    have fenced := congrArg (fun batch => batch.1) (fence_blocks_batch build.scheduler.jobCounter
      (deferredIds offering output.keysToStore) ((build.withScheduler
        (build.scheduler.withManager manager)).enterJob reqId
          (offering.status.advanceStoredIdx offering.config offering.numOffloadableTokens) gpuSpec
          output (fencedIds offering output.keysToStore)
          (deferredIds offering output.keysToStore)).scheduler)
    have same := desk_fence_blocks ((build.withScheduler
        (build.scheduler.withManager manager)).enterJob reqId
          (offering.status.advanceStoredIdx offering.config offering.numOffloadableTokens) gpuSpec
          output (fencedIds offering output.keysToStore)
          (deferredIds offering output.keysToStore)).scheduler build.scheduler.jobCounter
      (deferredIds offering output.keysToStore)
    apply linked_of_same entered
    · exact congrArg (fun books => prepared (Desk.manager books)) same
    · exact congrArg Desk.jobCounter same
    · exact fenced
  · cases stored
    exact entered

theorem store_request_linked {output : SchedulerOutput} {reqId : ReqId}
    (linked : Linked sent build.scheduler build.storeJobs)
    (stored : storeRequest output build reqId = .ok done) :
    Linked sent done.scheduler done.storeJobs := by
  unfold storeRequest at stored
  split at stored
  · cases stored
    exact linked
  · obtain ⟨numTokens, _, stored⟩ := bind_eq_ok.mp stored
    obtain ⟨offers, offered, stored⟩ := bind_eq_ok.mp stored
    have kept := (asked_recorded (offer_groups_asked _ offered)).prepared
    have offeredLinked : Linked sent (build.scheduler.withManager offers.manager) build.storeJobs :=
      linked_with_manager linked kept
    unfold storeOffers at stored
    dsimp only at stored
    split at stored
    · cases stored
      exact linked_of_same offeredLinked rfl rfl rfl
    · obtain ⟨⟨accepted, manager⟩, call, stored⟩ := bind_eq_ok.mp stored
      have recorded := (prepare_store_recorded call).2.1
      cases accepted with
      | none =>
          cases stored
          exact linked_with_manager offeredLinked (recorded.trans (List.append_nil _))
      | some accepted =>
          dsimp only at stored
          split at stored
          · rename_i nothing
            cases stored
            rw [TransferLog.accepted, if_pos nothing, List.append_nil] at recorded
            exact linked_of_same offeredLinked recorded rfl rfl
          · rename_i something
            rw [TransferLog.accepted, if_neg something] at recorded
            refine @store_accepted_linked M _ _ _ _ _ _ _ (prepared offers.manager) ?_ ?_ ?_ ?_ ?_
              stored
            · exact offeredLinked.counted
            · exact offeredLinked.loads
            · exact offeredLinked.stores
            · exact offeredLinked.gathered
            · exact recorded

theorem store_requests_linked {output : SchedulerOutput} (reqIds : List ReqId)
    {build : StoreBuild (Keeper M)} (linked : Linked sent build.scheduler build.storeJobs)
    (stored : storeRequests output build reqIds = .ok done) :
    Linked sent done.scheduler done.storeJobs := by
  induction reqIds generalizing build with
  | nil =>
      cases stored
      exact linked
  | cons reqId rest ih =>
      obtain ⟨middle, first, stored⟩ := bind_eq_ok.mp stored
      exact ih (store_request_linked linked first) stored

theorem build_jobs_linked {output : SchedulerOutput}
    (linked : Linked sent scheduler OrderedMap.empty) (built : buildJobs scheduler output = .ok done) :
    Linked sent done.scheduler done.storeJobs := by
  obtain ⟨updated, recorded, built⟩ := bind_eq_ok.mp built
  obtain ⟨manager, call, built⟩ := bind_eq_ok.mp built
  obtain ⟨flushed, flushing, built⟩ := bind_eq_ok.mp built
  obtain ⟨tails, tail, stored⟩ := bind_eq_ok.mp built
  have updatedLinked : Linked sent updated OrderedMap.empty := by
    apply linked_of_desk linked (update_req_states_desk recorded)
    obtain ⟨⟨recording, ends⟩, recordings, recorded⟩ := bind_eq_ok.mp recorded
    cases recorded
    have kept := record_all_blocks_loads _ recordings
    exact kept
  have ended : Linked sent (updated.withManager manager) OrderedMap.empty :=
    linked_with_manager updatedLinked (on_schedule_end_recorded call).2.prepared
  have flushedLinked : Linked sent flushed OrderedMap.empty :=
    linked_of_desk ended (flush_preempted_desk _ flushing) (flush_preempted_loads _ flushing)
  have drained : Linked sent (drainFlushJobs (flushReallocated flushed)) OrderedMap.empty :=
    linked_of_same flushedLinked rfl rfl rfl
  have tailed : Linked sent tails.scheduler tails.storeJobs := by
    unfold buildPartialTailStoreJobs at tail
    split at tail
    · exact build_partial_tail_jobs_linked _ drained tail
    · cases tail
      exact drained
  exact store_requests_linked _ tailed stored

theorem signal_finished_recorded (reqIds : List ReqId)
    {scheduler : OffloadingConnectorScheduler (Keeper M)}
    (signaled : signalFinished scheduler reqIds = .ok after) :
    prepared after.manager = prepared scheduler.manager ∧
      after.jobCounter = scheduler.jobCounter := by
  induction reqIds generalizing scheduler with
  | nil =>
      cases signaled
      exact ⟨rfl, rfl⟩
  | cons reqId rest ih =>
      unfold signalFinished at signaled
      split at signaled
      · exact ih signaled
      · rename_i status found
        obtain ⟨manager, call, signaled⟩ := bind_eq_ok.mp signaled
        obtain ⟨recorded, counter⟩ := ih signaled
        have told := (on_request_finished_recorded call).2.prepared
        split at recorded
        · rename_i idle
          rw [if_pos idle] at counter
          exact ⟨recorded.trans told, counter⟩
        · rename_i busy
          rw [if_neg busy] at counter
          exact ⟨recorded.trans told, counter⟩

/-- The jobs of a step's metadata are recorded, and the next step begins afresh: all jobs are sent
with it. -/
theorem build_meta_records {output : SchedulerOutput}
    {connectorMeta : OffloadingConnectorMetadata} (linked : Linked sent scheduler OrderedMap.empty)
    (built : buildConnectorMeta scheduler output = .ok (connectorMeta, after)) :
    Linked (fun jobId => sent jobId ∨ jobId ∈ connectorMeta.loadJobs.keys ∨
        jobId ∈ connectorMeta.storeJobs.keys) after OrderedMap.empty ∧
      Records (prepared after.manager) false connectorMeta.loadJobs ∧
      Records (prepared after.manager) true connectorMeta.storeJobs := by
  rw [build_connector_meta_eq] at built
  obtain ⟨build, jobs, built⟩ := bind_eq_ok.mp built
  obtain ⟨signaled, signaling, built⟩ := bind_eq_ok.mp built
  cases built
  obtain ⟨counted, loads, stores, gathered⟩ := build_jobs_linked linked jobs
  obtain ⟨recorded, counter⟩ := signal_finished_recorded _ signaling
  have same : prepared (clearBatch signaled).manager = prepared build.scheduler.manager := recorded
  rw [same]
  refine ⟨⟨?_, ?_, ?_, fun jobId below => .inl (gathered jobId (counter ▸ below))⟩, loads, stores⟩
  · rw [same]
    exact counted.trans counter.symm
  · exact records_empty _ _
  · exact records_empty _ _

/-- The load of an allocation is gathered under its id. -/
theorem update_state_after_alloc_linked {reqId : ReqId} {blocks : List (List KVCacheBlock)}
    {numExternalTokens : Nat} (linked : Linked sent scheduler OrderedMap.empty)
    (allocated : updateStateAfterAlloc scheduler reqId blocks numExternalTokens = .ok after) :
    Linked sent after OrderedMap.empty := by
  unfold updateStateAfterAlloc at allocated
  split at allocated
  · cases allocated
    exact linked
  · obtain ⟨status, _, allocated⟩ := bind_eq_ok.mp allocated
    obtain ⟨_, _, allocated⟩ := bind_eq_ok.mp allocated
    obtain ⟨plan, _, allocated⟩ := bind_eq_ok.mp allocated
    obtain ⟨⟨cpuBlockIds, manager⟩, call, allocated⟩ := bind_eq_ok.mp allocated
    obtain ⟨gpuSpec, _, allocated⟩ := bind_eq_ok.mp allocated
    obtain ⟨_, _, allocated⟩ := bind_eq_ok.mp allocated
    cases allocated
    have recorded := (prepare_load_recorded call).2.1
    refine ⟨?_, ?_, records_empty _ _, fun jobId below => ?_⟩
    · show (prepared manager).length = scheduler.jobCounter + 1
      rw [recorded, ← linked.counted]
      exact List.length_append
    · show Records (prepared manager) false (scheduler.currentBatchLoadJobs.set
        scheduler.jobCounter _)
      rw [recorded, ← linked.counted]
      exact records_set linked.loads plan.keysToLoad ⟨reqId, gpuSpec, cpuBlockIds⟩
    · show _ ∨ jobId ∈ (scheduler.currentBatchLoadJobs.set scheduler.jobCounter _).keys ∨ _
      rcases Nat.lt_succ_iff_lt_or_eq.mp below with earlier | isNew
      · exact (linked.gathered jobId earlier).imp_right fun here => here.imp_left fun load =>
          mem_keys_set _ (.inl load)
      · exact .inr (.inl (mem_keys_set _ (.inr isNew)))

end Builds

end KvOffload.SentRecords
