import KvOffload.FlushIds
import KvOffload.StoreOfferRuns

/-!
# The block table that the connector keeps

The connector keeps its own copy of each request's blocks. A step appends the blocks it hands
out and, from the store pointer of a window group on, zeroes the recorded ids that it hands out
again. Everything else leaves the copy as it is or drops it whole.
-/

namespace KvOffload.RecordedBlocks

open KvOffload KvOffload.Base KvOffload.ConnectorConfig KvOffload.ConnectorRequests
open KvOffload.ManagerInterface KvOffload.ConnectorScheduler KvOffload.ConnectorStores
open KvOffload.ConnectorMoves KvOffload.ConnectorBuilds KvOffload.RequestRecords
open KvOffload.StoreOffers KvOffload.StoreOfferRuns KvOffload.ResetRuns KvOffload.FlushIds

set_option autoImplicit false

variable {M : Type}

/-- The recorded blocks of a request stay as they are, and in a step so does the request. -/
def tableRule (steps : Prop) : RecordRule where
  Tables before after := after = before
  Keeps before after := (steps → after.req = before.req) ∧
    ∀ groupIdx, (after.groupStates groupIdx).blockIds = (before.groupStates groupIdx).blockIds
  Stored _ _ _ := True
  steady _ := rfl
  trans := fun ⟨req, blocks⟩ ⟨reqLater, blocksLater⟩ =>
    ⟨fun steps => (reqLater steps).trans (req steps), fun groupIdx =>
      (blocksLater groupIdx).trans (blocks groupIdx)⟩
  stored := fun _ _ => trivial
  noted := fun req _ _ _ groups => ⟨fun _ => req, fun groupIdx => (groups groupIdx).blocks⟩

theorem keeps_advance (steps : Prop) (config : SchedulerOffloadConfig)
    (status : RequestOffloadState) (numOffloadableTokens : Nat) :
    (tableRule steps).Keeps status (status.advanceStoredIdx config numOffloadableTokens) := by
  refine ⟨fun _ => rfl, fun groupIdx => ?_⟩
  unfold RequestOffloadState.advanceStoredIdx RequestOffloadState.mapOffloaded
  rw [RequestOffloadState.map_groups_states]
  split
  · rfl
  · rfl

theorem keeps_skip_hit_chunks (steps : Prop) (config : SchedulerOffloadConfig)
    (status : RequestOffloadState) (numCachedTokens : Nat) :
    (tableRule steps).Keeps status
      (ConnectorLoads.skipHitChunks config status numCachedTokens) := by
  unfold ConnectorLoads.skipHitChunks
  split
  · refine ⟨fun _ => rfl, fun groupIdx => ?_⟩
    unfold RequestOffloadState.mapOffloaded
    rw [RequestOffloadState.map_groups_states]
    split
    · rfl
    · rfl
  · exact keeps_refl _ status

section Recording

variable {scheduler after : OffloadingConnectorScheduler M}

/-- The step records blocks after those of the request. -/
structure Extends (earlier later : RequestOffloadState) : Prop where
  req : later.req = earlier.req
  pointer : ∀ groupIdx, (later.groupStates groupIdx).nextStoredChunkIdx =
    (earlier.groupStates groupIdx).nextStoredChunkIdx
  blocks : ∀ groupIdx, (earlier.groupStates groupIdx).blockIds <+:
    (later.groupStates groupIdx).blockIds

/-- What is known of a request while the blocks of a step are recorded. -/
structure RecordedAfter (status : RequestOffloadState) (reqId : ReqId)
    (scheduler : OffloadingConnectorScheduler M) (ends : BlockIdEnds) : Prop where
  tracked : ∃ current, scheduler.reqStatus.get? reqId = some current ∧ Extends status current
  ends : ∀ stop ∈ ends.get? reqId, ∀ groupIdx,
    (status.groupStates groupIdx).blockIds.length ≤ stop groupIdx

theorem extends_update_offload_keys {earlier later : RequestOffloadState}
    (extended : Extends earlier later) (config : SchedulerOffloadConfig) :
    Extends earlier (later.updateOffloadKeys config) := by
  have same : ∀ groupIdx,
      ((later.updateOffloadKeys config).groupStates groupIdx).nextStoredChunkIdx =
        (later.groupStates groupIdx).nextStoredChunkIdx ∧
      ((later.updateOffloadKeys config).groupStates groupIdx).blockIds =
        (later.groupStates groupIdx).blockIds := by
    intro groupIdx
    unfold RequestOffloadState.updateOffloadKeys RequestOffloadState.mapOffloaded
    rw [RequestOffloadState.map_groups_states]
    split
    · exact ⟨rfl, rfl⟩
    · exact ⟨rfl, rfl⟩
  refine ⟨extended.req, fun groupIdx => ?_, fun groupIdx => ?_⟩
  · rw [(same groupIdx).1]
    exact extended.pointer groupIdx
  · rw [(same groupIdx).2]
    exact extended.blocks groupIdx

theorem extends_update_block_id_groups {earlier later extended : RequestOffloadState}
    (before : Extends earlier later) {config : SchedulerOffloadConfig}
    {newBlockIdGroups : List (List Nat)}
    (updated : later.updateBlockIdGroups config newBlockIdGroups = .ok extended) :
    Extends earlier extended := by
  obtain ⟨_, _, updated⟩ := bind_eq_ok.mp updated
  cases updated
  exact ⟨before.req, before.pointer, fun groupIdx =>
    (before.blocks groupIdx).trans (List.prefix_append _ _)⟩

theorem record_blocks_extends {status : RequestOffloadState} {reqId : ReqId}
    {ends later : BlockIdEnds} {data : ReqData}
    (known : RecordedAfter status reqId scheduler ends)
    (kept : data.reqId = reqId → data.preempted = false)
    (recorded : recordBlocks scheduler ends data = .ok (after, later)) :
    RecordedAfter status reqId after later := by
  obtain ⟨current, found, extended⟩ := known.tracked
  obtain ⟨own, ownFound, recorded⟩ := bind_eq_ok.mp recorded
  have ownFound := status_of_ok ownFound
  have next : data.reqId = reqId → Extends status (if data.preempted then
      (own.updateOffloadKeys scheduler.config).clearBlockIds
      else own.updateOffloadKeys scheduler.config) := by
    intro same
    rw [kept same, if_neg Bool.false_ne_true]
    rw [same, found] at ownFound
    cases ownFound
    exact extends_update_offload_keys extended _
  dsimp only at recorded
  split at recorded
  · cases recorded
    refine ⟨?_, known.ends⟩
    by_cases same : data.reqId = reqId
    · exact ⟨_, same ▸ OrderedMap.get_set_self _ _ _, next same⟩
    · exact ⟨current, (OrderedMap.get_set_of_ne _ _ (Ne.symm same)).trans found, extended⟩
  · obtain ⟨wider, updated, recorded⟩ := bind_eq_ok.mp recorded
    cases recorded
    by_cases same : data.reqId = reqId
    · refine ⟨⟨wider, same ▸ OrderedMap.get_set_self _ _ _,
        extends_update_block_id_groups (next same) updated⟩, ?_⟩
      intro stop member groupIdx
      rw [← same, OrderedMap.get_set_self] at member
      cases member
      exact ((next same).blocks groupIdx).length_le
    · refine ⟨⟨current, (OrderedMap.get_set_of_ne _ _ (Ne.symm same)).trans found, extended⟩, ?_⟩
      intro stop member
      rw [OrderedMap.get_set_of_ne _ _ (Ne.symm same)] at member
      exact known.ends stop member

theorem record_all_blocks_extends {status : RequestOffloadState} {reqId : ReqId}
    (data : List ReqData) (kept : ∀ entry ∈ data, entry.reqId = reqId → entry.preempted = false)
    {scheduler : OffloadingConnectorScheduler M} {ends later : BlockIdEnds}
    (known : RecordedAfter status reqId scheduler ends)
    (recorded : recordAllBlocks scheduler ends data = .ok (after, later)) :
    RecordedAfter status reqId after later := by
  induction data generalizing scheduler ends with
  | nil =>
      cases recorded
      exact known
  | cons entry rest ih =>
      obtain ⟨⟨middle, middleEnds⟩, first, recorded⟩ := bind_eq_ok.mp recorded
      refine ih (fun other member => kept other (List.mem_cons_of_mem _ member)) ?_ recorded
      exact record_blocks_extends known (kept entry List.mem_cons_self) first

/-- What a step leaves of the recorded blocks: in a window group, an id from the store pointer
on stays only if the step does not hand it out. -/
structure Guarded (config : SchedulerOffloadConfig) (allocated : Finset Nat)
    (earlier later : RequestOffloadState) : Prop where
  req : later.req = earlier.req
  blocks : ∀ group ∈ config.kvGroupConfigs, ∀ index blockId,
    (earlier.groupStates group.groupIdx).blockIds[index]? = some blockId →
      (later.groupStates group.groupIdx).blockIds[index]? = some blockId ∧
          (group.slidingWindowSizeInChunks.isSome = true →
            (earlier.groupStates group.groupIdx).nextStoredChunkIdx * config.blocksPerChunk ≤
              index → blockId ∉ allocated) ∨
        group.slidingWindowSizeInChunks.isSome = true ∧
          (later.groupStates group.groupIdx).blockIds[index]? = some 0

theorem zero_stale_entry {allocated : Finset Nat} {start stop index blockId : Nat}
    {blockIds : List Nat} (found : blockIds[index]? = some blockId) (within : index < stop) :
    (zeroStale allocated start stop blockIds)[index]? = some blockId ∧
        (start ≤ index → blockId ∉ allocated) ∨
      (zeroStale allocated start stop blockIds)[index]? = some 0 := by
  simp only [zeroStale, List.getElem?_mapIdx, found, Option.map_some]
  split
  · exact .inr rfl
  · rename_i spared
    exact .inl ⟨rfl, fun above handed => spared ⟨above, within, handed⟩⟩

theorem zero_stale_of_guards {config : SchedulerOffloadConfig} {allocated : Finset Nat}
    {ends : Option (Nat → Nat)} {earlier later : RequestOffloadState}
    (extended : Extends earlier later)
    (enough : ∀ stop ∈ ends, ∀ groupIdx,
      (earlier.groupStates groupIdx).blockIds.length ≤ stop groupIdx) :
    Guarded config allocated earlier (zeroStaleOf config allocated ends later) := by
  refine ⟨extended.req, fun group member index blockId found => ?_⟩
  have inside := (List.getElem?_eq_some_iff.mp found).1
  have foundLater : (later.groupStates group.groupIdx).blockIds[index]? = some blockId := by
    obtain ⟨rest, same⟩ := extended.blocks group.groupIdx
    rw [← same, List.getElem?_append_left inside, found]
  unfold zeroStaleOf
  rw [map_offloaded_state _ _ _ member]
  split
  · rename_i window
    rw [extended.pointer group.groupIdx]
    have entry : ∀ stop, index < stop → _ := fun stop within => @zero_stale_entry allocated
      ((earlier.groupStates group.groupIdx).nextStoredChunkIdx * config.blocksPerChunk) stop _ _ _
      foundLater within
    cases ends with
    | none =>
        exact (entry _ (inside.trans_le (extended.blocks group.groupIdx).length_le)).imp
          (And.imp_right fun spared _ => spared) (And.intro window)
    | some stop =>
        exact (entry _ (inside.trans_le (enough stop rfl group.groupIdx))).imp
          (And.imp_right fun spared _ => spared) (And.intro window)
  · rename_i full
    exact .inl ⟨foundLater, fun window => absurd window full⟩

theorem update_req_states_guards {output : SchedulerOutput}
    (updated : updateReqStates scheduler output = .ok after) {reqId : ReqId}
    {status : RequestOffloadState} (found : scheduler.reqStatus.get? reqId = some status)
    (kept : ∀ data ∈ output.reqData, data.reqId = reqId → data.preempted = false) :
    ∃ later, after.reqStatus.get? reqId = some later ∧
      Guarded scheduler.config (handedOut scheduler output) status later := by
  have allocated := (update_req_states_batch updated).1
  obtain ⟨⟨recorded, ends⟩, recordings, updated⟩ := bind_eq_ok.mp updated
  cases updated
  have start : RecordedAfter status reqId scheduler OrderedMap.empty :=
    ⟨⟨status, found, rfl, fun _ => rfl, fun _ => List.prefix_rfl⟩, nofun⟩
  obtain ⟨⟨current, foundCurrent, extended⟩, enough⟩ :=
    record_all_blocks_extends _ kept start recordings
  have config := (record_all_blocks_follows pointer_rule_free _ recordings).config
  refine ⟨_, (OrderedMap.get_map_values _ _ _).trans (congrArg _ foundCurrent), ?_⟩
  rw [← allocated, ← config]
  exact zero_stale_of_guards extended enough

theorem update_req_states_config {output : SchedulerOutput}
    (updated : updateReqStates scheduler output = .ok after) : after.config = scheduler.config :=
  (update_req_states_follows pointer_rule_free updated).config

end Recording

section Stores

variable [OffloadingManager M]

/-- When the walk over the requests comes to this one, its offers are accepted in part and
stored under the next job id. -/
structure StoresNext (output : SchedulerOutput) (build : StoreBuild M) (jobId : JobId)
    (transfer : TransferJob) (offering : Offering) (prepared : PrepareStoreOutput) : Prop where
  status : build.scheduler.reqStatus.get? transfer.reqId = some offering.status
  tokens : ∃ numTokens, numTokensAfterBatch output offering.status.req = .ok numTokens ∧
    offering = ⟨build.scheduler.config, build.scheduler.settings, offering.status,
      offering.status.calcNumOffloadableTokens build.scheduler.config numTokens⟩
  accepted : ∃ offers manager, offering.offerGroups ⟨build.scheduler.manager, build.offered, []⟩
      build.scheduler.config.kvGroupConfigs = .ok offers ∧
    OffloadingManager.prepareStore offers.manager offers.keys offering.status.reqContext
      build.scheduler.settings.mirrorLocal = .ok (some prepared, manager)
  isNext : jobId = build.scheduler.jobCounter
  gpuSpec : offering.storeSpec prepared.keysToStore = .ok transfer.gpuSpec
  cpuBlockIds : transfer.cpuBlockIds = prepared.storeSpec

/-- The walk over the requests of the step makes the store job. -/
def Emitted (output : SchedulerOutput) (tails : StoreBuild M) (jobId : JobId)
    (transfer : TransferJob) (offering : Offering) (prepared : PrepareStoreOutput) : Prop :=
  ∃ earlier rest build,
    output.numScheduledTokens.keys ++ output.finishedReqIds = earlier ++ transfer.reqId :: rest ∧
      storeRequests output tails earlier = .ok build ∧
      StoresNext output build jobId transfer offering prepared

/-- What is known of a store job that was made of an offering: the recorded blocks are those of
the step, and the job is flushed when its request has finished and the step hands out a block
it reads outside windows. -/
structure ChunkStore (updated now : OffloadingConnectorScheduler M) (allocated : Finset Nat)
    (jobId : JobId) (transfer : TransferJob) (offering : Offering)
    (prepared : PrepareStoreOutput) : Prop where
  config : offering.config = updated.config
  recorded : ∃ status, updated.reqStatus.get? transfer.reqId = some status ∧
    (tableRule True).Keeps status offering.status
  late : offering.status.req.isFinished = true →
    ∀ blockId ∈ deferredIds offering prepared.keysToStore, blockId ∈ allocated →
      jobId ∈ now.currentBatchJobsToFlush

/-- The walk keeps what the step has recorded; its jobs are those of the tails and the emitted
ones. -/
structure ChunkStores (output : SchedulerOutput) (updated : OffloadingConnectorScheduler M)
    (allocated : Finset Nat) (tails : StoreBuild M) (now : OffloadingConnectorScheduler M)
    (storeJobs : OrderedMap JobId TransferJob) : Prop where
  config : now.config = updated.config
  handed : now.currentBatchAllocatedBlockIds = allocated
  recorded : ∀ reqId later, now.reqStatus.get? reqId = some later →
    ∃ earlier, updated.reqStatus.get? reqId = some earlier ∧
      (tableRule True).Keeps earlier later
  made : ∀ jobId transfer, storeJobs.get? jobId = some transfer →
    tails.storeJobs.get? jobId = some transfer ∨ ∃ offering prepared,
      Emitted output tails jobId transfer offering prepared ∧
        ChunkStore updated now allocated jobId transfer offering prepared

variable {output : SchedulerOutput} {updated now later : OffloadingConnectorScheduler M}
  {allocated : Finset Nat} {tails : StoreBuild M} {storeJobs : OrderedMap JobId TransferJob}

theorem chunk_stores_frame (stores : ChunkStores output updated allocated tails now storeJobs)
    (follows : Follows (tableRule True) now later) (same : batch later = batch now) :
    ChunkStores output updated allocated tails later storeJobs where
  config := follows.config.trans stores.config
  handed := (congrArg (fun batch => batch.2.2) same).trans stores.handed
  recorded := by
    intro reqId last found
    obtain ⟨middle, foundMiddle, kept⟩ := follows.requests reqId last found
    obtain ⟨earlier, foundEarlier, keptEarlier⟩ := stores.recorded reqId middle foundMiddle
    exact ⟨earlier, foundEarlier, (tableRule True).trans keptEarlier kept⟩
  made := by
    intro jobId transfer found
    have flush : later.currentBatchJobsToFlush = now.currentBatchJobsToFlush :=
      congrArg (fun batch => batch.2.1) same
    refine (stores.made jobId transfer found).imp_right ?_
    rintro ⟨offering, prepared, emitted, made⟩
    exact ⟨offering, prepared, emitted, made.config, made.recorded, flush ▸ made.late⟩

variable {build done : StoreBuild M} {reqId : ReqId} {offering : Offering}

theorem store_accepted_made {prepared : PrepareStoreOutput}
    (stores : ChunkStores output updated allocated tails build.scheduler build.storeJobs)
    (found : build.scheduler.reqStatus.get? reqId = some offering.status)
    (config : offering.config = build.scheduler.config)
    (emitted : ∀ gpuSpec, offering.storeSpec prepared.keysToStore = .ok gpuSpec →
      Emitted output tails build.scheduler.jobCounter ⟨reqId, gpuSpec, prepared.storeSpec⟩ offering
        prepared)
    (stored : storeAccepted build reqId offering prepared = .ok done) :
    ChunkStores output updated allocated tails done.scheduler done.storeJobs := by
  have follows : Follows (tableRule True) build.scheduler done.scheduler :=
    store_accepted_follows found (keeps_advance _ _ _ _) trivial stored
  obtain ⟨handed, flush, gpuSpec, spec, sent⟩ := store_accepted_batch stored
  refine ⟨follows.config.trans stores.config, handed.trans stores.handed, ?_, ?_⟩
  · intro other last foundLast
    obtain ⟨middle, foundMiddle, kept⟩ := follows.requests other last foundLast
    obtain ⟨earlier, foundEarlier, keptEarlier⟩ := stores.recorded other middle foundMiddle
    exact ⟨earlier, foundEarlier, (tableRule True).trans keptEarlier kept⟩
  · intro jobId transfer isSent
    rw [sent, OrderedMap.get_set] at isSent
    split at isSent
    · rename_i isNew
      cases isSent
      refine .inr ⟨offering, prepared, isNew ▸ emitted gpuSpec spec, config.trans stores.config,
        stores.recorded reqId _ found, fun finished blockId member isHanded => ?_⟩
      rw [← stores.handed] at isHanded
      exact (flush jobId).mpr (.inr ⟨isNew, finished, blockId, member, isHanded⟩)
    · refine (stores.made jobId transfer isSent).imp_right ?_
      rintro ⟨other, otherPrepared, otherEmitted, made⟩
      exact ⟨other, otherPrepared, otherEmitted, made.config, made.recorded,
        fun finished blockId member isHanded =>
          (flush jobId).mpr (.inl (made.late finished blockId member isHanded))⟩

theorem store_offers_made {keys : List OffloadKey}
    (stores : ChunkStores output updated allocated tails build.scheduler build.storeJobs)
    (found : build.scheduler.reqStatus.get? reqId = some offering.status)
    (config : offering.config = build.scheduler.config)
    (emitted : ∀ prepared manager, OffloadingManager.prepareStore build.scheduler.manager keys
      offering.status.reqContext build.scheduler.settings.mirrorLocal =
        .ok (some prepared, manager) → ∀ gpuSpec,
      offering.storeSpec prepared.keysToStore = .ok gpuSpec →
        Emitted output tails build.scheduler.jobCounter ⟨reqId, gpuSpec, prepared.storeSpec⟩
          offering prepared)
    (stored : storeOffers build reqId offering keys = .ok done) :
    ChunkStores output updated allocated tails done.scheduler done.storeJobs := by
  have advanced : Follows (tableRule True) build.scheduler (build.scheduler.setStatus reqId
      (offering.status.advanceStoredIdx offering.config offering.numOffloadableTokens)) :=
    follows_set_status found (keeps_advance _ _ _ _)
  unfold storeOffers at stored
  dsimp only at stored
  split at stored
  · cases stored
    exact chunk_stores_frame stores advanced rfl
  · obtain ⟨⟨prepared, manager⟩, call, stored⟩ := bind_eq_ok.mp stored
    have swapped : Follows (tableRule True) build.scheduler
        (build.scheduler.withManager manager) := follows_of_same rfl rfl rfl
    cases prepared with
    | none =>
        cases stored
        exact chunk_stores_frame stores swapped rfl
    | some prepared =>
        dsimp only at stored
        split at stored
        · cases stored
          exact chunk_stores_frame stores ⟨advanced.config, advanced.requests, advanced.jobs⟩ rfl
        · have told := chunk_stores_frame stores swapped rfl
          exact @store_accepted_made M _ output updated allocated tails
            (build.withScheduler (build.scheduler.withManager manager)) done reqId offering prepared
            told found config (emitted prepared manager call) stored

theorem store_request_made {earlier rest : List ReqId}
    (walk : output.numScheduledTokens.keys ++ output.finishedReqIds = earlier ++ reqId :: rest)
    (walked : storeRequests output tails earlier = .ok build)
    (stores : ChunkStores output updated allocated tails build.scheduler build.storeJobs)
    (stored : storeRequest output build reqId = .ok done) :
    ChunkStores output updated allocated tails done.scheduler done.storeJobs := by
  unfold storeRequest at stored
  split at stored
  · cases stored
    exact stores
  · rename_i status found
    obtain ⟨numTokens, counted, stored⟩ := bind_eq_ok.mp stored
    obtain ⟨offers, offered, stored⟩ := bind_eq_ok.mp stored
    have swapped : Follows (tableRule True) build.scheduler
        (build.scheduler.withManager offers.manager) := follows_of_same rfl rfl rfl
    have told := chunk_stores_frame stores swapped rfl
    have made := store_offers_made (by exact told) (by exact found) (by rfl) (by
      intro prepared manager call gpuSpec spec
      exact ⟨earlier, rest, build, walk, walked, found, ⟨numTokens, counted, rfl⟩,
        ⟨offers, manager, offered, call⟩, rfl, spec, rfl⟩) stored
    exact made

theorem store_requests_concat (reqIds : List ReqId) {build done last : StoreBuild M}
    (walked : storeRequests output build reqIds = .ok done)
    (stored : storeRequest output done reqId = .ok last) :
    storeRequests output build (reqIds ++ [reqId]) = .ok last := by
  induction reqIds generalizing build with
  | nil =>
      cases walked
      exact bind_eq_ok.mpr ⟨last, stored, rfl⟩
  | cons first rest ih =>
      obtain ⟨middle, isFirst, walked⟩ := bind_eq_ok.mp walked
      exact bind_eq_ok.mpr ⟨middle, isFirst, ih walked⟩

theorem store_requests_made (reqIds : List ReqId) {earlier : List ReqId} {build : StoreBuild M}
    (walk : output.numScheduledTokens.keys ++ output.finishedReqIds = earlier ++ reqIds)
    (walked : storeRequests output tails earlier = .ok build)
    (stores : ChunkStores output updated allocated tails build.scheduler build.storeJobs)
    (stored : storeRequests output build reqIds = .ok done) :
    ChunkStores output updated allocated tails done.scheduler done.storeJobs := by
  induction reqIds generalizing earlier build with
  | nil =>
      cases stored
      exact stores
  | cons reqId rest ih =>
      obtain ⟨middle, first, stored⟩ := bind_eq_ok.mp stored
      refine ih ?_ (store_requests_concat earlier walked first)
        (store_request_made walk walked stores first) stored
      rw [walk, List.append_assoc, List.singleton_append]

end Stores

section Steps

variable [OffloadingManager M] {scheduler after begun : OffloadingConnectorScheduler M}
  {output : SchedulerOutput}

/-- Before the tails the step only records blocks. -/
theorem before_tails_updates (began : beforeTails scheduler output = .ok begun) :
    ∃ updated, updateReqStates scheduler output = .ok updated ∧
      Follows (tableRule True) updated begun ∧
      begun.currentBatchAllocatedBlockIds = handedOut scheduler output := by
  obtain ⟨_, _, allocated, _⟩ := before_tails_flush began
  obtain ⟨updated, recorded, began⟩ := bind_eq_ok.mp began
  obtain ⟨manager, _, began⟩ := bind_eq_ok.mp began
  obtain ⟨flushed, flushing, began⟩ := bind_eq_ok.mp began
  cases began
  have told : Follows (tableRule True) updated (updated.withManager manager) :=
    follows_of_same rfl rfl rfl
  have drained : Follows (tableRule True) flushed (drainFlushJobs (flushReallocated flushed)) :=
    follows_of_same rfl rfl rfl
  exact ⟨updated, recorded, follows_trans told
    (follows_trans (flush_preempted_follows _ flushing) drained), allocated⟩

/-- The stages of a step, with what its store jobs were made of. -/
theorem build_stores_made {connectorMeta : OffloadingConnectorMetadata}
    (built : buildConnectorMeta scheduler output = .ok (connectorMeta, after)) :
    ∃ updated begun tails stores, updateReqStates scheduler output = .ok updated ∧
      beforeTails scheduler output = .ok begun ∧
      buildPartialTailStoreJobs ⟨begun, 0, OrderedMap.empty⟩ output = .ok tails ∧
      ChunkStores output updated (handedOut scheduler output) tails stores
        connectorMeta.storeJobs ∧
      connectorMeta.jobsToFlush = stores.currentBatchJobsToFlush ∧
      after.config = scheduler.config ∧
      ∀ reqId later, after.reqStatus.get? reqId = some later →
        ∃ earlier, updated.reqStatus.get? reqId = some earlier ∧
          (tableRule True).Keeps earlier later := by
  rw [build_connector_meta_eq] at built
  obtain ⟨build, jobs, built⟩ := bind_eq_ok.mp built
  obtain ⟨signaled, signaling, built⟩ := bind_eq_ok.mp built
  cases built
  obtain ⟨updated, recorded, jobs⟩ := bind_eq_ok.mp jobs
  obtain ⟨manager, call, jobs⟩ := bind_eq_ok.mp jobs
  obtain ⟨flushed, flushing, jobs⟩ := bind_eq_ok.mp jobs
  obtain ⟨tails, tailed, stored⟩ := bind_eq_ok.mp jobs
  have began : beforeTails scheduler output = .ok (drainFlushJobs (flushReallocated flushed)) :=
    bind_eq_ok.mpr ⟨updated, recorded, bind_eq_ok.mpr ⟨manager, call,
      bind_eq_ok.mpr ⟨flushed, flushing, rfl⟩⟩⟩
  obtain ⟨same, sameRecorded, first, allocated⟩ := before_tails_updates began
  cases recorded.symm.trans sameRecorded
  have second : Follows (tableRule True) (drainFlushJobs (flushReallocated flushed))
      tails.scheduler :=
    build_partial_tail_store_jobs_follows
      (fun _ _ _ _ _ _ _ _ _ _ _ _ _ _ _ _ => trivial) tailed
  have whole := follows_trans first second
  have handed : tails.scheduler.currentBatchAllocatedBlockIds = handedOut scheduler output := by
    rw [← allocated]
    unfold buildPartialTailStoreJobs at tailed
    split at tailed
    · exact congrArg (fun batch => batch.2.2) (build_partial_tail_jobs_batch _ tailed)
    · cases tailed
      rfl
  have start : ChunkStores output updated (handedOut scheduler output) tails tails.scheduler
      tails.storeJobs :=
    ⟨whole.config, handed, whole.requests, fun _ _ found => .inl found⟩
  have stores := store_requests_made _ (List.nil_append _).symm rfl start stored
  have signals : Follows (tableRule True) build.scheduler signaled :=
    signal_finished_follows _ signaling
  have config := update_req_states_config recorded
  refine ⟨updated, _, tails, build.scheduler, recorded, began, tailed, stores, rfl,
    (signals.config.trans stores.config).trans config, ?_⟩
  intro reqId later found
  obtain ⟨middle, foundMiddle, kept⟩ := signals.requests reqId later found
  obtain ⟨earlier, foundEarlier, keptEarlier⟩ := stores.recorded reqId middle foundMiddle
  exact ⟨earlier, foundEarlier, (tableRule True).trans keptEarlier kept⟩

end Steps

section Lookups

variable [OffloadingManager M] {scheduler after : OffloadingConnectorScheduler M}

/-- A lookup drops the recorded blocks of its request. -/
theorem get_num_clears {reqId : ReqId} {numComputedTokens : Nat}
    {answer : OffloadingConnectorScheduler.Matched}
    (called : scheduler.getNumNewMatchedTokens reqId numComputedTokens = .ok (answer, after)) :
    after.config = scheduler.config ∧ ∃ later,
      after.reqStatus = scheduler.reqStatus.set reqId later ∧
        ∀ groupIdx, (later.groupStates groupIdx).blockIds = [] := by
  have clears : ∀ status later : RequestOffloadState,
      (tableRule False).Keeps status.clearBlockIds later →
        ∀ groupIdx, (later.groupStates groupIdx).blockIds = [] :=
    fun _ _ kept groupIdx => kept.2 groupIdx
  unfold OffloadingConnectorScheduler.getNumNewMatchedTokens at called
  obtain ⟨status, found, called⟩ := bind_eq_ok.mp called
  dsimp only at called
  split at called
  · cases called
    exact ⟨rfl, _, rfl, clears status _ (keeps_refl _ _)⟩
  · split at called
    · cases called
      exact ⟨rfl, _, rfl, clears status _ (keeps_with_stale_hit _ _ _)⟩
    · split at called
      · cases called
        exact ⟨rfl, _, rfl, clears status _ (keeps_with_stale_hit _ _ _)⟩
      · rename_i unpinned clock _
        obtain ⟨⟨numHitTokens, looked, manager⟩, lookup, answered⟩ := bind_eq_ok.mp called
        have keyed : (tableRule False).Keeps status.clearBlockIds
            { (status.clearBlockIds.withStaleHit unpinned).updateOffloadKeys scheduler.config with
              numLocallyComputedTokens := numComputedTokens } :=
          (tableRule False).trans (keeps_with_stale_hit _ _ unpinned)
            ((tableRule False).trans (keeps_update_offload_keys _ scheduler.config _)
              ((tableRule False).noted rfl rfl rfl rfl fun _ => quiet_refl _ _))
        have asked := (tableRule False).trans keyed (fresh_lookup_kept lookup)
        unfold OffloadingConnectorScheduler.answerHit at answered
        dsimp only at answered
        split at answered
        · cases answered
          exact ⟨rfl, _, rfl, clears status _
            ((tableRule False).trans asked (keeps_with_stale_hit _ _ _))⟩
        · obtain ⟨last, _, answered⟩ := bind_eq_ok.mp answered
          generalize StaleHitLadder.StaleHit.climb _ _ _ _ _ = climbed at answered
          obtain ⟨fallsBack, climbed, clock⟩ := climbed
          have climbing := (tableRule False).trans ((tableRule False).trans asked
            (keeps_update_num_hit_chunks _ scheduler.config looked
              (numComputedTokens + numHitTokens.getD 0))) (keeps_with_stale_hit _ _ climbed)
          dsimp only at answered
          split at answered
          · cases answered
            exact ⟨rfl, _, rfl, clears status _ climbing⟩
          · cases answered
            exact ⟨rfl, _, rfl, clears status _ climbing⟩

end Lookups

end KvOffload.RecordedBlocks
