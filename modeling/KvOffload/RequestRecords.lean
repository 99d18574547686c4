import KvOffload.ConnectorRuns

/-!
# The records of the connector

What the calls of the connector leave of its requests and of its jobs, in terms of any
relation between two states of a request that the everyday changes satisfy. Changes of the
store pointers and new store jobs are left to those who use the relation.
-/

namespace KvOffload.RequestRecords

open KvOffload KvOffload.Base KvOffload.ConnectorConfig KvOffload.ConnectorRequests
open KvOffload.ManagerInterface KvOffload.ConnectorScheduler KvOffload.ConnectorLoads
open KvOffload.ConnectorStores KvOffload.ConnectorCompletion KvOffload.ConnectorMoves

set_option autoImplicit false

/-- Keys are appended and the store pointer does not advance; the recorded blocks change as
`Tables` allows. -/
structure QuietGroup (Tables : List Nat → List Nat → Prop) (before after : RequestGroupState) :
    Prop where
  keys : before.offloadKeys <+: after.offloadKeys
  pointer : after.nextStoredChunkIdx ≤ before.nextStoredChunkIdx
  blocks : Tables before.blockIds after.blockIds

/-- What is kept of a request and of its recorded blocks, and which keys may be stored for
it. -/
structure RecordRule where
  Tables : List Nat → List Nat → Prop
  Keeps : RequestOffloadState → RequestOffloadState → Prop
  Stored : SchedulerOffloadConfig → RequestOffloadState → List OffloadKey → Prop
  steady : ∀ blockIds, Tables blockIds blockIds
  trans : ∀ {before middle after : RequestOffloadState},
    Keeps before middle → Keeps middle after → Keeps before after
  stored : ∀ {config : SchedulerOffloadConfig} {before after : RequestOffloadState}
    {keys : List OffloadKey}, Keeps before after → Stored config before keys →
      Stored config after keys
  noted : ∀ {before after : RequestOffloadState}, after.req = before.req →
    after.reqContext = before.reqContext → after.policy = before.policy →
    after.maxOffloadTokens = before.maxOffloadTokens →
    (∀ groupIdx, QuietGroup Tables (before.groupStates groupIdx) (after.groupStates groupIdx)) →
      Keeps before after

/-- The recorded blocks may change in any way. -/
def RecordRule.Free (rule : RecordRule) : Prop :=
  ∀ before after, rule.Tables before after

section Keeps

variable (rule : RecordRule)

theorem quiet_refl (state : RequestGroupState) : QuietGroup rule.Tables state state :=
  ⟨List.prefix_rfl, le_rfl, rule.steady _⟩

theorem keeps_refl (status : RequestOffloadState) : rule.Keeps status status :=
  rule.noted rfl rfl rfl rfl fun _ => quiet_refl rule _

theorem keeps_map_groups (status : RequestOffloadState)
    {change : Nat → RequestGroupState → RequestGroupState}
    (quiet : ∀ groupIdx state, QuietGroup rule.Tables state (change groupIdx state)) :
    rule.Keeps status (status.mapGroups change) :=
  rule.noted rfl rfl rfl rfl fun groupIdx => quiet groupIdx _

theorem keeps_map_offloaded (config : SchedulerOffloadConfig) (status : RequestOffloadState)
    {change : GroupOffloadConfig → RequestGroupState → RequestGroupState}
    (quiet : ∀ group state, QuietGroup rule.Tables state (change group state)) :
    rule.Keeps status (status.mapOffloaded config change) := by
  apply keeps_map_groups
  intro groupIdx state
  split
  · exact quiet_refl rule state
  · exact quiet _ state

theorem keeps_update_offload_keys (config : SchedulerOffloadConfig)
    (status : RequestOffloadState) : rule.Keeps status (status.updateOffloadKeys config) :=
  keeps_map_offloaded rule config status fun _ _ =>
    ⟨List.prefix_append _ _, le_rfl, rule.steady _⟩

variable {rule} in
theorem keeps_clear_block_ids (free : rule.Free) (status : RequestOffloadState) :
    rule.Keeps status status.clearBlockIds :=
  keeps_map_groups rule status fun _ _ => ⟨List.prefix_rfl, le_rfl, free _ _⟩

variable {rule} in
theorem keeps_update_block_id_groups (free : rule.Free) {config : SchedulerOffloadConfig}
    {before after : RequestOffloadState} {newBlockIdGroups : List (List Nat)}
    (updated : before.updateBlockIdGroups config newBlockIdGroups = .ok after) :
    rule.Keeps before after := by
  obtain ⟨_, _, updated⟩ := bind_eq_ok.mp updated
  cases updated
  exact keeps_map_groups rule before fun _ _ => ⟨List.prefix_rfl, le_rfl, free _ _⟩

variable {rule} in
theorem keeps_zero_stale_of (free : rule.Free) (config : SchedulerOffloadConfig) (allocated : Finset Nat)
    (ends : Option (Nat → Nat)) (status : RequestOffloadState) :
    rule.Keeps status (zeroStaleOf config allocated ends status) := by
  apply keeps_map_offloaded
  intro group state
  split
  · exact ⟨List.prefix_rfl, le_rfl, free _ _⟩
  · exact quiet_refl rule state

theorem keeps_update_num_hit_chunks (config : SchedulerOffloadConfig)
    (status : RequestOffloadState) (numCachedTokens : Nat) :
    rule.Keeps status (status.updateNumHitChunks config numCachedTokens) :=
  keeps_map_offloaded rule config status fun _ _ => ⟨List.prefix_rfl, le_rfl, rule.steady _⟩

theorem keeps_reset_status (status : RequestOffloadState) :
    rule.Keeps status (resetStatus status) :=
  rule.noted rfl rfl rfl rfl fun _ => ⟨List.prefix_rfl, Nat.zero_le _, rule.steady _⟩

theorem keeps_with_stale_hit (status : RequestOffloadState) (staleHit : StaleHit) :
    rule.Keeps status (status.withStaleHit staleHit) :=
  rule.noted rfl rfl rfl rfl fun _ => quiet_refl rule _

end Keeps

variable {M : Type} {rule : RecordRule}

/-- What a call keeps of the records of the connector; a job that it enters belongs to a
tracked request, with keys that may be stored. -/
structure Follows (rule : RecordRule) (before after : OffloadingConnectorScheduler M) : Prop where
  config : after.config = before.config
  requests : ∀ reqId later, after.reqStatus.get? reqId = some later →
    ∃ earlier, before.reqStatus.get? reqId = some earlier ∧ rule.Keeps earlier later
  jobs : ∀ jobId job, after.jobs.get? jobId = some job →
    (∃ old, before.jobs.get? jobId = some old ∧ old.reqId = job.reqId ∧ old.keys = job.keys ∧
      old.isStore = job.isStore) ∨
    (∃ status, before.reqStatus.get? job.reqId = some status) ∧
      (job.isStore = true → ∀ status, after.reqStatus.get? job.reqId = some status →
        rule.Stored after.config status job.keys)

section Follows

variable {before middle after : OffloadingConnectorScheduler M}

theorem follows_trans (first : Follows rule before middle) (second : Follows rule middle after) :
    Follows rule before after where
  config := second.config.trans first.config
  requests := by
    intro reqId later found
    obtain ⟨between, foundBetween, keptLater⟩ := second.requests reqId later found
    obtain ⟨earlier, foundEarlier, kept⟩ := first.requests reqId between foundBetween
    exact ⟨earlier, foundEarlier, rule.trans kept keptLater⟩
  jobs := by
    intro jobId job found
    rcases second.jobs jobId job found with ⟨old, foundOld, same⟩ | ⟨⟨between, tracked⟩, within⟩
    · rcases first.jobs jobId old foundOld with ⟨oldest, foundOldest, sameOld⟩ | entered
      · exact .inl ⟨oldest, foundOldest, sameOld.1.trans same.1, sameOld.2.1.trans same.2.1,
          sameOld.2.2.trans same.2.2⟩
      · rw [same.1, same.2.1, same.2.2] at entered
        apply Or.inr
        apply And.intro entered.1
        intro isStore status foundStatus
        obtain ⟨between, foundBetween, kept⟩ := second.requests _ status foundStatus
        rw [second.config]
        exact rule.stored kept (entered.2 isStore between foundBetween)
    · obtain ⟨earlier, foundEarlier, _⟩ := first.requests _ between tracked
      exact .inr ⟨⟨earlier, foundEarlier⟩, within⟩

/-- The jobs stay as they are and the requests are kept. -/
theorem follows_of_requests (config : after.config = before.config)
    (jobs : after.jobs = before.jobs)
    (requests : ∀ reqId later, after.reqStatus.get? reqId = some later →
      ∃ earlier, before.reqStatus.get? reqId = some earlier ∧ rule.Keeps earlier later) :
    Follows rule before after := by
  apply Follows.mk config requests
  intro jobId job found
  rw [jobs] at found
  exact .inl ⟨job, found, rfl, rfl, rfl⟩

theorem follows_of_same (config : after.config = before.config)
    (requests : after.reqStatus = before.reqStatus) (jobs : after.jobs = before.jobs) :
    Follows rule before after := by
  apply follows_of_requests config jobs
  intro reqId later found
  rw [requests] at found
  exact ⟨later, found, keeps_refl rule later⟩

theorem follows_refl (scheduler : OffloadingConnectorScheduler M) :
    Follows rule scheduler scheduler :=
  follows_of_same rfl rfl rfl

/-- One request is written, whatever happens beside the records. -/
theorem follows_write {reqId : ReqId} {earlier later : RequestOffloadState}
    (found : before.reqStatus.get? reqId = some earlier) (kept : rule.Keeps earlier later)
    (config : after.config = before.config) (jobs : after.jobs = before.jobs)
    (requests : after.reqStatus = before.reqStatus.set reqId later) : Follows rule before after := by
  apply follows_of_requests config jobs
  intro other status foundStatus
  rw [requests, OrderedMap.get_set] at foundStatus
  split at foundStatus
  · rename_i same
    cases foundStatus
    exact ⟨earlier, same ▸ found, kept⟩
  · exact ⟨status, foundStatus, keeps_refl rule status⟩

theorem follows_set_status {scheduler : OffloadingConnectorScheduler M} {reqId : ReqId}
    {earlier later : RequestOffloadState}
    (found : scheduler.reqStatus.get? reqId = some earlier) (kept : rule.Keeps earlier later) :
    Follows rule scheduler (scheduler.setStatus reqId later) :=
  follows_write found kept rfl rfl rfl

theorem follows_forget (scheduler : OffloadingConnectorScheduler M) (reqId : ReqId) :
    Follows rule scheduler (scheduler.forget reqId) := by
  refine follows_of_requests rfl rfl ?_
  intro other status found
  have erased : (scheduler.reqStatus.erase reqId).get? other = some status := found
  rw [OrderedMap.get_erase] at erased
  split at erased
  · cases erased
  · exact ⟨status, erased, keeps_refl rule status⟩

/-- A job entered for a tracked request. -/
theorem follows_enter {reqId : ReqId} {earlier later : RequestOffloadState} {jobId : JobId}
    {job : TransferJobStatus} (found : before.reqStatus.get? reqId = some earlier)
    (kept : rule.Keeps earlier later) (own : job.reqId = reqId)
    (within : job.isStore = true → rule.Stored before.config later job.keys)
    (config : after.config = before.config)
    (requests : after.reqStatus = before.reqStatus.set reqId later)
    (jobs : after.jobs = before.jobs.set jobId job) : Follows rule before after := by
  have set := follows_set_status found kept
  apply Follows.mk config
  · rw [requests]
    exact set.requests
  · intro other entry foundEntry
    rw [jobs, OrderedMap.get_set] at foundEntry
    split at foundEntry
    · cases foundEntry
      apply Or.inr
      apply And.intro ⟨earlier, own ▸ found⟩
      intro isStore status foundStatus
      rw [requests, own, OrderedMap.get_set_self] at foundStatus
      cases foundStatus
      rw [config]
      exact within isStore
    · exact .inl ⟨entry, foundEntry, rfl, rfl, rfl⟩

end Follows

section Blocks

variable {scheduler after : OffloadingConnectorScheduler M}

theorem record_blocks_follows (free : rule.Free) {ends later : BlockIdEnds} {data : ReqData}
    (recorded : recordBlocks scheduler ends data = .ok (after, later)) :
    Follows rule scheduler after := by
  obtain ⟨status, found, recorded⟩ := bind_eq_ok.mp recorded
  have found := status_of_ok found
  have keys := keeps_update_offload_keys rule scheduler.config status
  have cleared : rule.Keeps status (if data.preempted then
      (status.updateOffloadKeys scheduler.config).clearBlockIds
      else status.updateOffloadKeys scheduler.config) := by
    split
    · exact rule.trans keys (keeps_clear_block_ids free _)
    · exact keys
  dsimp only at recorded
  split at recorded
  · cases recorded
    exact follows_set_status found cleared
  · obtain ⟨extended, updated, recorded⟩ := bind_eq_ok.mp recorded
    cases recorded
    have set := follows_set_status found
      (rule.trans cleared (keeps_update_block_id_groups free updated))
    exact ⟨set.config, set.requests, set.jobs⟩

theorem record_all_blocks_follows (free : rule.Free) (data : List ReqData)
    {scheduler : OffloadingConnectorScheduler M} {ends later : BlockIdEnds}
    (recorded : recordAllBlocks scheduler ends data = .ok (after, later)) :
    Follows rule scheduler after := by
  induction data generalizing scheduler ends with
  | nil =>
      cases recorded
      exact follows_refl _
  | cons first rest ih =>
      obtain ⟨⟨middle, ends⟩, first, recorded⟩ := bind_eq_ok.mp recorded
      exact follows_trans (record_blocks_follows free first) (ih recorded)

theorem zero_stale_blocks_follows (free : rule.Free) (scheduler : OffloadingConnectorScheduler M)
    (ends : BlockIdEnds) : Follows rule scheduler (zeroStaleBlocks scheduler ends) := by
  refine follows_of_requests rfl rfl ?_
  intro reqId later found
  have mapped : (zeroStaleBlocks scheduler ends).reqStatus.get? reqId =
      (scheduler.reqStatus.get? reqId).map _ := OrderedMap.get_map_values _ _ _
  rw [mapped, Option.map_eq_some_iff] at found
  obtain ⟨earlier, found, zeroed⟩ := found
  rw [← zeroed]
  exact ⟨earlier, found, keeps_zero_stale_of free _ _ _ earlier⟩

theorem update_req_states_follows (free : rule.Free) {output : SchedulerOutput}
    (updated : updateReqStates scheduler output = .ok after) : Follows rule scheduler after := by
  obtain ⟨⟨recorded, ends⟩, recordings, updated⟩ := bind_eq_ok.mp updated
  cases updated
  exact follows_trans (record_all_blocks_follows free _ recordings)
    (zero_stale_blocks_follows free _ ends)

theorem flush_preempted_follows (reqIds : List ReqId)
    {scheduler : OffloadingConnectorScheduler M}
    (flushed : flushPreempted scheduler reqIds = .ok after) : Follows rule scheduler after := by
  induction reqIds generalizing scheduler with
  | nil =>
      cases flushed
      exact follows_refl _
  | cons reqId rest ih =>
      unfold flushPreempted at flushed
      split at flushed
      · exact ih flushed
      · obtain ⟨_, _, flushed⟩ := bind_eq_ok.mp flushed
        have later := ih flushed
        exact ⟨later.config, later.requests, later.jobs⟩

theorem fence_blocks_records (jobId : JobId) (blockIds : List Nat)
    (scheduler : OffloadingConnectorScheduler M) :
    (scheduler.fenceBlocks jobId blockIds).config = scheduler.config ∧
      (scheduler.fenceBlocks jobId blockIds).reqStatus = scheduler.reqStatus ∧
      (scheduler.fenceBlocks jobId blockIds).jobs = scheduler.jobs := by
  induction blockIds generalizing scheduler with
  | nil => exact ⟨rfl, rfl, rfl⟩
  | cons blockId rest ih => exact ih (scheduler.fence jobId blockId)

theorem fence_blocks_follows (jobId : JobId) (blockIds : List Nat)
    (scheduler : OffloadingConnectorScheduler M) :
    Follows rule scheduler (scheduler.fenceBlocks jobId blockIds) := by
  obtain ⟨config, requests, jobs⟩ := fence_blocks_records jobId blockIds scheduler
  exact follows_of_same config requests jobs

end Blocks

section Jobs

variable {build after : StoreBuild M}

theorem enter_job_follows {reqId : ReqId} {earlier later : RequestOffloadState}
    (gpuSpec : GPULoadStoreSpec) {output : PrepareStoreOutput} (fenced deferred : List Nat)
    (found : build.scheduler.reqStatus.get? reqId = some earlier) (kept : rule.Keeps earlier later)
    (within : rule.Stored build.scheduler.config earlier output.keysToStore.dedup) :
    Follows rule build.scheduler
      (build.enterJob reqId later gpuSpec output fenced deferred).scheduler := by
  have jobKept : rule.Keeps earlier (later.withTransferJob build.scheduler.jobCounter) :=
    rule.trans kept (rule.noted rfl rfl rfl rfl fun _ => quiet_refl rule _)
  obtain ⟨config, requests, jobs⟩ := fence_blocks_records build.scheduler.jobCounter fenced
    (({ build.scheduler with jobCounter := build.scheduler.jobCounter + 1 }).setStatus reqId
      (later.withTransferJob build.scheduler.jobCounter))
  apply @follows_enter M rule _ _ reqId earlier _ build.scheduler.jobCounter
    { reqId := reqId
      pendingCount := build.scheduler.config.numWorkers
      keys := output.keysToStore.dedup
      isStore := true
      deferredFenceBlockIds := deferred
      fencedBlockIds := fenced } found jobKept rfl
  · exact fun _ => rule.stored jobKept within
  · exact config
  · exact requests
  · exact congrArg (fun entered => OrderedMap.set entered build.scheduler.jobCounter
      { reqId := reqId
        pendingCount := build.scheduler.config.numWorkers
        keys := output.keysToStore.dedup
        isStore := true
        deferredFenceBlockIds := deferred
        fencedBlockIds := fenced }) jobs

end Jobs

section Accepted

variable [OffloadingManager M] {build after : StoreBuild M}

theorem store_accepted_follows {reqId : ReqId} {offering : Offering} {output : PrepareStoreOutput}
    (found : build.scheduler.reqStatus.get? reqId = some offering.status)
    (advances : rule.Keeps offering.status
      (offering.status.advanceStoredIdx offering.config offering.numOffloadableTokens))
    (within : rule.Stored build.scheduler.config offering.status output.keysToStore.dedup)
    (stored : storeAccepted build reqId offering output = .ok after) :
    Follows rule build.scheduler after.scheduler := by
  obtain ⟨manager, _, stored⟩ := bind_eq_ok.mp stored
  obtain ⟨gpuSpec, _, stored⟩ := bind_eq_ok.mp stored
  obtain ⟨_, _, stored⟩ := bind_eq_ok.mp stored
  have swapped : Follows rule build.scheduler
      (build.withScheduler (build.scheduler.withManager manager)).scheduler :=
    follows_of_same rfl rfl rfl
  have entered := follows_trans swapped (enter_job_follows gpuSpec
    (offering.sourceIds output.keysToStore fun group => group.slidingWindowSizeInChunks.isSome)
    (offering.sourceIds output.keysToStore fun group => group.slidingWindowSizeInChunks.isNone)
    (by exact found) advances within)
  dsimp only at stored
  split at stored
  · cases stored
    have fenced := follows_trans entered (fence_blocks_follows build.scheduler.jobCounter
      (offering.sourceIds output.keysToStore fun group => group.slidingWindowSizeInChunks.isNone)
      _)
    exact ⟨fenced.config, fenced.requests, fenced.jobs⟩
  · cases stored
    exact entered

end Accepted

section Tails

variable [OffloadingManager M] {build after : StoreBuild M}

/-- What a manager accepts of the tail at a boundary may be stored for the request. -/
def BoundaryFits (M : Type) [OffloadingManager M] (rule : RecordRule)
    (config : SchedulerOffloadConfig) (status : RequestOffloadState) (boundary : Nat) : Prop :=
  ∀ keys (manager after : M) output,
    config.kvGroupConfigs.mapM (fun group =>
      makeBoundaryKey config status.req group.groupIdx boundary) = .ok keys →
    OffloadingManager.prepareStore manager keys status.reqContext false =
      .ok (some output, after) →
    rule.Stored config status output.keysToStore.dedup

/-- The boundary of a handoff fits, once the checks of the source have passed. -/
def TailFits (rule : RecordRule) (scheduler : OffloadingConnectorScheduler M) (reqId : ReqId)
    (entries : List PartialTailOffload) : Prop :=
  ∀ status, scheduler.reqStatus.get? reqId = some status → ∀ entry ∈ entries,
    0 < entry.boundary → entry.boundary % scheduler.config.tokensPerHash = 0 →
      BoundaryFits M rule scheduler.config status entry.boundary

theorem store_partial_tail_follows {reqId : ReqId} {status : RequestOffloadState}
    {entries : List PartialTailOffload} {boundary : Nat}
    (found : build.scheduler.reqStatus.get? reqId = some status)
    (fits : BoundaryFits M rule build.scheduler.config status boundary)
    (stored : storePartialTail build reqId status entries boundary = .ok after) :
    Follows rule build.scheduler after.scheduler := by
  obtain ⟨keys, made, stored⟩ := bind_eq_ok.mp stored
  obtain ⟨_, _, stored⟩ := bind_eq_ok.mp stored
  obtain ⟨⟨output, manager⟩, call, stored⟩ := bind_eq_ok.mp stored
  cases output with
  | none =>
      cases stored
      exact follows_of_same rfl rfl rfl
  | some output =>
      dsimp only at stored
      split at stored
      · cases stored
        exact follows_of_same rfl rfl rfl
      · obtain ⟨accepted, _, stored⟩ := bind_eq_ok.mp stored
        obtain ⟨gpuSpec, _, stored⟩ := bind_eq_ok.mp stored
        cases stored
        have swapped : Follows rule build.scheduler
            (build.withScheduler (build.scheduler.withManager manager)).scheduler :=
          follows_of_same rfl rfl rfl
        apply follows_trans swapped
        exact enter_job_follows gpuSpec _ [] (by exact found) (keeps_refl rule status)
          (fits keys _ manager output made call)

theorem partial_tail_job_follows {reqId : ReqId} {entries : List PartialTailOffload}
    (fits : TailFits rule build.scheduler reqId entries)
    (stored : partialTailJob build reqId entries = .ok after) :
    Follows rule build.scheduler after.scheduler := by
  unfold partialTailJob at stored
  dsimp only at stored
  split at stored
  · rename_i status first rest found
    obtain ⟨_, _, stored⟩ := bind_eq_ok.mp stored
    obtain ⟨_, positive, stored⟩ := bind_eq_ok.mp stored
    obtain ⟨_, aligned, stored⟩ := bind_eq_ok.mp stored
    obtain ⟨_, _, stored⟩ := bind_eq_ok.mp stored
    obtain ⟨_, _, stored⟩ := bind_eq_ok.mp stored
    obtain ⟨_, _, stored⟩ := bind_eq_ok.mp stored
    split at stored
    · cases stored
      exact follows_refl _
    · exact store_partial_tail_follows found (fits status found first (List.mem_cons_self ..)
        (py_assert_eq_ok.mp positive) (py_assert_eq_ok.mp aligned)) stored
  · cases stored

theorem build_partial_tail_jobs_follows (handoffs : List (ReqId × List PartialTailOffload))
    {build : StoreBuild M}
    (fits : ∀ scheduler, Follows rule build.scheduler scheduler → ∀ handoff ∈ handoffs,
      TailFits rule scheduler handoff.1 handoff.2)
    (built : buildPartialTailJobs build handoffs = .ok after) :
    Follows rule build.scheduler after.scheduler := by
  induction handoffs generalizing build with
  | nil =>
      cases built
      exact follows_refl _
  | cons handoff rest ih =>
      obtain ⟨middle, stored, built⟩ := bind_eq_ok.mp built
      have first := partial_tail_job_follows
        (fits _ (follows_refl _) handoff (List.mem_cons_self ..)) stored
      apply follows_trans first
      apply ih _ built
      intro scheduler later other member
      exact fits scheduler (follows_trans first later) other (List.mem_cons_of_mem _ member)

theorem build_partial_tail_store_jobs_follows {output : SchedulerOutput}
    (fits : ∀ scheduler, Follows rule build.scheduler scheduler →
      ∀ handoff ∈ output.partialTailOffloads.entries, TailFits rule scheduler handoff.1 handoff.2)
    (built : buildPartialTailStoreJobs build output = .ok after) :
    Follows rule build.scheduler after.scheduler := by
  unfold buildPartialTailStoreJobs at built
  split at built
  · exact build_partial_tail_jobs_follows _ fits built
  · cases built
    exact follows_refl _

end Tails

section Builds

variable [OffloadingManager M] {scheduler after : OffloadingConnectorScheduler M}

theorem signal_finished_follows (reqIds : List ReqId)
    {scheduler : OffloadingConnectorScheduler M}
    (signaled : signalFinished scheduler reqIds = .ok after) : Follows rule scheduler after := by
  induction reqIds generalizing scheduler with
  | nil =>
      cases signaled
      exact follows_refl _
  | cons reqId rest ih =>
      unfold signalFinished at signaled
      split at signaled
      · exact ih signaled
      · rename_i status found
        obtain ⟨manager, _, signaled⟩ := bind_eq_ok.mp signaled
        dsimp only at signaled
        have told : Follows rule scheduler (scheduler.withManager manager) :=
          follows_of_same rfl rfl rfl
        have flagged := follows_trans told (@follows_set_status M rule
          (scheduler.withManager manager) reqId status { status with finishedSignaled := true }
          (by exact found) (rule.noted rfl rfl rfl rfl fun _ => quiet_refl rule _))
        apply follows_trans _ (ih signaled)
        split
        · exact follows_trans flagged (follows_forget _ reqId)
        · exact flagged

/-- The state of the connector when the partial tails are offered. -/
def beforeTails (scheduler : OffloadingConnectorScheduler M) (output : SchedulerOutput) :
    Except PyError (OffloadingConnectorScheduler M) := do
  let scheduler ← updateReqStates scheduler output
  let manager ← OffloadingManager.onScheduleEnd scheduler.manager
    ⟨output.newReqIds, output.preemptedReqIds⟩
  let scheduler ← flushPreempted (scheduler.withManager manager) output.preemptedReqIds
  .ok (drainFlushJobs (flushReallocated scheduler))

theorem before_tails_follows (free : rule.Free) {output : SchedulerOutput}
    (began : beforeTails scheduler output = .ok after) : Follows rule scheduler after := by
  obtain ⟨updated, recorded, began⟩ := bind_eq_ok.mp began
  obtain ⟨manager, _, began⟩ := bind_eq_ok.mp began
  obtain ⟨flushed, flushing, began⟩ := bind_eq_ok.mp began
  cases began
  have told : Follows rule updated (updated.withManager manager) := follows_of_same rfl rfl rfl
  have drained : Follows rule flushed (drainFlushJobs (flushReallocated flushed)) :=
    follows_of_same rfl rfl rfl
  apply follows_trans (update_req_states_follows free recorded)
  apply follows_trans told
  exact follows_trans (flush_preempted_follows _ flushing) drained

/-- A step that succeeds: what is recorded, the tails, the chunks and the signals. -/
theorem build_connector_meta_stages {output : SchedulerOutput}
    {connectorMeta : OffloadingConnectorMetadata}
    (built : buildConnectorMeta scheduler output = .ok (connectorMeta, after)) :
    ∃ begun tails stores signaled, beforeTails scheduler output = .ok begun ∧
      buildPartialTailStoreJobs ⟨begun, 0, OrderedMap.empty⟩ output = .ok tails ∧
      buildStoreJobs tails output = .ok stores ∧
      signalFinished stores.scheduler output.finishedReqIds = .ok signaled ∧
      after = clearBatch signaled := by
  have stages : buildConnectorMeta scheduler output = (do
      let scheduler ← beforeTails scheduler output
      let build ← buildPartialTailStoreJobs ⟨scheduler, 0, OrderedMap.empty⟩ output
      let build ← buildStoreJobs build output
      let connectorMeta : OffloadingConnectorMetadata :=
        { loadJobs := build.scheduler.currentBatchLoadJobs
          storeJobs := build.storeJobs
          jobsToFlush := build.scheduler.currentBatchJobsToFlush }
      let scheduler ← signalFinished build.scheduler output.finishedReqIds
      .ok (connectorMeta, clearBatch scheduler)) := by
    unfold buildConnectorMeta beforeTails
    simp only [bind_assoc, ok_bind]
  rw [stages] at built
  obtain ⟨begun, beginning, built⟩ := bind_eq_ok.mp built
  obtain ⟨tails, tailed, built⟩ := bind_eq_ok.mp built
  obtain ⟨stores, stored, built⟩ := bind_eq_ok.mp built
  obtain ⟨signaled, signaling, built⟩ := bind_eq_ok.mp built
  cases built
  exact ⟨begun, tails, stores, signaled, beginning, tailed, stored, signaling, rfl⟩

end Builds

section Calls

variable [OffloadingManager M] {scheduler after : OffloadingConnectorScheduler M}

theorem fresh_lookup_kept {status later : RequestOffloadState} {numHitTokens : Option Nat}
    {manager : M} (looked : scheduler.freshLookup status = .ok (numHitTokens, later, manager)) :
    rule.Keeps status later := by
  unfold OffloadingConnectorScheduler.freshLookup at looked
  split at looked
  · cases looked
    exact keeps_refl rule status
  · obtain ⟨⟨answer, lookedManager⟩, _, looked⟩ := bind_eq_ok.mp looked
    cases looked
    exact (rule.noted rfl rfl rfl rfl fun _ => quiet_refl rule _)

theorem get_num_follows (free : rule.Free) {reqId : ReqId} {numComputedTokens : Nat}
    {answer : OffloadingConnectorScheduler.Matched}
    (called : scheduler.getNumNewMatchedTokens reqId numComputedTokens = .ok (answer, after)) :
    Follows rule scheduler after := by
  unfold OffloadingConnectorScheduler.getNumNewMatchedTokens at called
  obtain ⟨status, found, called⟩ := bind_eq_ok.mp called
  have found := status_of_ok found
  have cleared := keeps_clear_block_ids free status
  dsimp only at called
  split at called
  · cases called
    exact follows_set_status found cleared
  · split at called
    · cases called
      exact follows_write found (rule.trans cleared (keeps_with_stale_hit rule _ _)) rfl rfl rfl
    · split at called
      · cases called
        exact follows_write found (rule.trans cleared (keeps_with_stale_hit rule _ _)) rfl rfl rfl
      · rename_i unpinned clock _
        obtain ⟨⟨numHitTokens, looked, manager⟩, lookup, answered⟩ := bind_eq_ok.mp called
        have keyed : rule.Keeps status { (status.clearBlockIds.withStaleHit
            unpinned).updateOffloadKeys scheduler.config with
            numLocallyComputedTokens := numComputedTokens } := by
          have updated := rule.trans (rule.trans cleared (keeps_with_stale_hit rule _ unpinned))
            (keeps_update_offload_keys rule scheduler.config _)
          exact rule.trans updated (rule.noted rfl rfl rfl rfl fun _ => quiet_refl rule _)
        have asked := rule.trans keyed (fresh_lookup_kept lookup)
        unfold OffloadingConnectorScheduler.answerHit at answered
        dsimp only at answered
        split at answered
        · cases answered
          exact follows_write found (rule.trans asked (keeps_with_stale_hit rule _ _)) rfl rfl rfl
        · obtain ⟨last, _, answered⟩ := bind_eq_ok.mp answered
          generalize StaleHitLadder.StaleHit.climb _ _ _ _ _ = climbed at answered
          obtain ⟨fallsBack, climbed, clock⟩ := climbed
          have climbing := rule.trans (rule.trans asked (keeps_update_num_hit_chunks rule
            scheduler.config looked (numComputedTokens + numHitTokens.getD 0)))
            (keeps_with_stale_hit rule _ climbed)
          dsimp only at answered
          split at answered
          · cases answered
            exact follows_write found climbing rfl rfl rfl
          · cases answered
            exact follows_write found climbing rfl rfl rfl

omit [OffloadingManager M] in
theorem enter_load_job_follows {reqId : ReqId} {earlier later : RequestOffloadState}
    {plan : LoadPlan} {cpuBlockIds : List Nat}
    (found : scheduler.reqStatus.get? reqId = some earlier) (kept : rule.Keeps earlier later)
    (entered : enterLoadJob scheduler reqId later plan cpuBlockIds = .ok after) :
    Follows rule scheduler after := by
  obtain ⟨dstSpec, _, entered⟩ := bind_eq_ok.mp entered
  obtain ⟨_, _, entered⟩ := bind_eq_ok.mp entered
  cases entered
  have jobKept : rule.Keeps earlier
      ((later.withTransferJob scheduler.jobCounter).withPartialTail none) :=
    rule.trans kept (rule.noted rfl rfl rfl rfl fun _ => quiet_refl rule _)
  apply @follows_enter M rule _ _ reqId earlier _ scheduler.jobCounter
    { reqId := reqId
      pendingCount := scheduler.config.numWorkers
      keys := plan.keysToLoad.dedup
      isStore := false } found jobKept rfl
  · exact nofun
  · rfl
  · rfl
  · rfl

theorem update_state_after_alloc_follows {reqId : ReqId} {blocks : List (List KVCacheBlock)}
    {numExternalTokens : Nat}
    (skips : ∀ status, scheduler.reqStatus.get? reqId = some status → numExternalTokens ≠ 0 →
      rule.Keeps status (skipHitChunks scheduler.config status
        (status.numLocallyComputedTokens + numExternalTokens)))
    (called : updateStateAfterAlloc scheduler reqId blocks numExternalTokens = .ok after) :
    Follows rule scheduler after := by
  unfold updateStateAfterAlloc at called
  split at called
  · cases called
    exact follows_refl _
  · rename_i external
    obtain ⟨status, found, called⟩ := bind_eq_ok.mp called
    have found := status_of_ok found
    obtain ⟨_, _, called⟩ := bind_eq_ok.mp called
    obtain ⟨plan, _, called⟩ := bind_eq_ok.mp called
    obtain ⟨⟨cpuBlockIds, manager⟩, _, called⟩ := bind_eq_ok.mp called
    have later := enter_load_job_follows (by exact found)
      (skips status found external) called
    exact ⟨later.config, later.requests, later.jobs⟩

omit [OffloadingManager M] in
theorem drop_fences_records {jobId : JobId} {job : TransferJobStatus} {isFinished : Bool}
    (dropped : dropFences scheduler jobId job isFinished = .ok after) :
    after.config = scheduler.config ∧ after.reqStatus = scheduler.reqStatus ∧
      after.jobs = scheduler.jobs := by
  rw [drop_fences_eq] at dropped
  split at dropped
  · cases dropped
    exact ⟨rfl, rfl, rfl⟩
  · split at dropped
    · cases dropped
      exact ⟨rfl, rfl, rfl⟩
    · cases dropped

omit [OffloadingManager M] in
theorem drop_job_follows {jobId : JobId} {reqId : ReqId} {status : RequestOffloadState}
    (found : scheduler.reqStatus.get? reqId = some status)
    (dropped : dropJob scheduler jobId reqId status = .ok after) : Follows rule scheduler after := by
  have erased : Follows rule scheduler { scheduler with jobs := scheduler.jobs.erase jobId } := by
    refine ⟨rfl, ?_, ?_⟩
    · exact fun _ later found => ⟨later, found, keeps_refl rule later⟩
    · intro other job foundJob
      have erased : (scheduler.jobs.erase jobId).get? other = some job := foundJob
      rw [OrderedMap.get_erase] at erased
      split at erased
      · cases erased
      · exact .inl ⟨job, erased, rfl, rfl, rfl⟩
  unfold dropJob at dropped
  dsimp only at dropped
  split at dropped
  · split at dropped
    · cases dropped
      exact follows_trans erased (follows_forget _ reqId)
    · cases dropped
      apply follows_trans erased
      apply follows_set_status
      · exact found
      · exact (rule.noted rfl rfl rfl rfl fun _ => quiet_refl rule _)
  · cases dropped

theorem finish_job_follows {jobId : JobId} {job : TransferJobStatus}
    (finished : finishJob scheduler jobId job = .ok after) : Follows rule scheduler after := by
  obtain ⟨status, found, finished⟩ := bind_eq_ok.mp finished
  have found := status_of_ok found
  obtain ⟨completed, call, finished⟩ := bind_eq_ok.mp finished
  obtain ⟨unfenced, removed, dropped⟩ := bind_eq_ok.mp finished
  rw [complete_transfer_eq] at call
  obtain ⟨manager, _, told_eq⟩ := map_eq_ok.mp call
  obtain ⟨config, requests, jobs⟩ := drop_fences_records removed
  have toldRecords : completed.config = scheduler.config ∧
      completed.reqStatus = scheduler.reqStatus ∧ completed.jobs = scheduler.jobs := by
    rw [← told_eq]
    unfold told
    split
    · exact ⟨rfl, rfl, rfl⟩
    · exact ⟨rfl, rfl, rfl⟩
  have unfencedFollows : Follows rule scheduler unfenced :=
    follows_of_same (config.trans toldRecords.1) (requests.trans toldRecords.2.1)
      (jobs.trans toldRecords.2.2)
  apply follows_trans unfencedFollows
  apply drop_job_follows _ dropped
  rw [requests, toldRecords.2.1]
  exact found

theorem report_job_follows {jobId : JobId} {count : Int}
    (reported : reportJob scheduler jobId count = .ok after) : Follows rule scheduler after := by
  obtain ⟨_, _, reported⟩ := bind_eq_ok.mp reported
  split at reported
  · cases reported
    exact follows_refl _
  · obtain ⟨job, found, reported⟩ := bind_eq_ok.mp reported
    have found : scheduler.jobs.get? jobId = some job := py_item_eq_ok.mp found
    have counted : Follows rule scheduler (scheduler.withJob jobId
        { job with pendingCount := job.pendingCount - count }) := by
      refine ⟨rfl, ?_, ?_⟩
      · exact fun _ later found => ⟨later, found, keeps_refl rule later⟩
      · intro other entry foundEntry
        have written : (scheduler.jobs.set jobId
            { job with pendingCount := job.pendingCount - count }).get? other = some entry :=
          foundEntry
        rw [OrderedMap.get_set] at written
        split at written
        · rename_i same
          cases written
          exact .inl ⟨job, same ▸ found, rfl, rfl, rfl⟩
        · exact .inl ⟨entry, written, rfl, rfl, rfl⟩
    dsimp only at reported
    split at reported
    · cases reported
      exact counted
    · obtain ⟨_, _, finished⟩ := bind_eq_ok.mp reported
      exact follows_trans counted (finish_job_follows finished)

theorem update_connector_output_follows (reports : List (JobId × Int))
    {scheduler : OffloadingConnectorScheduler M}
    (updated : updateConnectorOutput scheduler reports = .ok after) :
    Follows rule scheduler after := by
  induction reports generalizing scheduler with
  | nil =>
      cases updated
      exact follows_refl _
  | cons entry rest ih =>
      obtain ⟨middle, reported, updated⟩ := bind_eq_ok.mp updated
      exact follows_trans (report_job_follows reported) (ih updated)

omit [OffloadingManager M] in
theorem fence_deferred_follows (jobIds : List JobId) {scheduler : OffloadingConnectorScheduler M}
    (fenced : fenceDeferred scheduler jobIds = .ok after) : Follows rule scheduler after := by
  induction jobIds generalizing scheduler with
  | nil =>
      cases fenced
      exact follows_refl _
  | cons jobId rest ih =>
      obtain ⟨job, _, fenced⟩ := bind_eq_ok.mp fenced
      exact follows_trans (fence_blocks_follows jobId _ scheduler) (ih fenced)

theorem request_finished_follows {req : Request}
    (changes : ∀ status, scheduler.reqStatus.get? req.requestId = some status →
      rule.Keeps status (status.withRequest req))
    (finished : requestFinished scheduler req = .ok after) : Follows rule scheduler after := by
  unfold requestFinished at finished
  split at finished
  · obtain ⟨manager, _, finished⟩ := bind_eq_ok.mp finished
    cases finished
    exact follows_of_same rfl rfl rfl
  · rename_i status found
    have kept := rule.trans (changes status found)
      (keeps_update_offload_keys rule scheduler.config _)
    exact follows_trans (follows_set_status found kept) (fence_deferred_follows _ finished)

omit [OffloadingManager M] in
theorem request_changed_follows {req : Request}
    (changes : ∀ status, scheduler.reqStatus.get? req.requestId = some status →
      rule.Keeps status (status.withRequest req)) : Follows rule scheduler (scheduler.requestChanged req) := by
  refine follows_of_requests rfl rfl ?_
  intro reqId later found
  have modified : (scheduler.reqStatus.modify req.requestId fun status =>
      status.withRequest req).get? reqId = some later := found
  rw [OrderedMap.get_modify] at modified
  split at modified
  · rename_i same
    obtain ⟨earlier, foundEarlier, changed⟩ := Option.map_eq_some_iff.mp modified
    rw [← changed]
    exact ⟨earlier, foundEarlier, changes earlier (same ▸ foundEarlier)⟩
  · exact ⟨later, modified, keeps_refl rule later⟩

theorem drop_finished_follows (entries : List (ReqId × RequestOffloadState))
    {scheduler : OffloadingConnectorScheduler M}
    (dropped : dropFinished scheduler entries = .ok after) : Follows rule scheduler after := by
  induction entries generalizing scheduler with
  | nil =>
      cases dropped
      exact follows_refl _
  | cons entry rest ih =>
      unfold dropFinished at dropped
      split at dropped
      · exact ih dropped
      · split at dropped
        · exact follows_trans (follows_forget _ _) (ih dropped)
        · obtain ⟨manager, _, dropped⟩ := bind_eq_ok.mp dropped
          have told : Follows rule scheduler (scheduler.withManager manager) :=
            follows_of_same rfl rfl rfl
          exact follows_trans told (follows_trans (follows_forget _ _) (ih dropped))

theorem reset_cache_follows (reset : resetCache scheduler = .ok after) :
    Follows rule scheduler after := by
  obtain ⟨_, _, reset⟩ := bind_eq_ok.mp reset
  obtain ⟨_, _, reset⟩ := bind_eq_ok.mp reset
  obtain ⟨_, _, reset⟩ := bind_eq_ok.mp reset
  obtain ⟨dropped, dropping, reset⟩ := bind_eq_ok.mp reset
  obtain ⟨manager, _, reset⟩ := bind_eq_ok.mp reset
  cases reset
  have finished : Follows rule _ dropped := drop_finished_follows _ dropping
  have forgotten : Follows rule dropped (forgetJobs (dropped.withManager manager)) := by
    refine ⟨rfl, ?_, ?_⟩
    · intro reqId later found
      have mapped : (dropped.reqStatus.mapValues fun _ status => resetStatus status).get? reqId =
          some later := found
      rw [OrderedMap.get_map_values, Option.map_eq_some_iff] at mapped
      obtain ⟨earlier, foundEarlier, same⟩ := mapped
      rw [← same]
      exact ⟨earlier, foundEarlier, keeps_reset_status rule earlier⟩
    · exact nofun
  have begun := follows_trans finished forgotten
  exact ⟨begun.config, begun.requests, begun.jobs⟩

end Calls

end KvOffload.RequestRecords
