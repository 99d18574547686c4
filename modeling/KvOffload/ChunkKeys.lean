import KvOffload.RequestRecords
import KvOffload.StoreOffers
import KvOffload.SentRecords

/-!
# The keys a request knows

The block hashes of a request grow as it computes. In every run the keys kept for a group are
those of its complete chunks, in order, so no key is kept twice and no list of keys that is
offered to the manager names one twice.
-/

namespace KvOffload.ChunkKeys

open KvOffload KvOffload.Base KvOffload.ConnectorConfig KvOffload.ConnectorRequests
open KvOffload.ManagerInterface KvOffload.ConnectorScheduler KvOffload.ConnectorLoads
open KvOffload.ConnectorStores KvOffload.ConnectorCompletion KvOffload.LookupCalls
open KvOffload.ConnectorMoves KvOffload.ConnectorBuilds KvOffload.ConnectorRuns
open KvOffload.RequestRecords KvOffload.StoreOffers KvOffload.TransferRecords
open KvOffload.SentRecords

set_option autoImplicit false

/-- The key of a chunk: the hash of its last block. -/
def chunkKey (hashes : List BlockHash) (group : GroupOffloadConfig) (chunkIdx : Nat) :
    Option OffloadKey :=
  hashes[group.hashesPerChunk * chunkIdx + group.hashesPerChunk - 1]?.map fun blockHash =>
    makeOffloadKey blockHash group.groupIdx

/-- The keys of the first chunks, in order. -/
def GroupHashed (hashes : List BlockHash) (group : GroupOffloadConfig)
    (keys : List OffloadKey) : Prop :=
  ∀ chunkIdx key, keys[chunkIdx]? = some key → chunkKey hashes group chunkIdx = some key

section Keys

variable {hashes grown : List BlockHash} {group : GroupOffloadConfig} {keys : List OffloadKey}

theorem chunk_key_grows (prefixed : hashes <+: grown) {chunkIdx : Nat} {key : OffloadKey}
    (known : chunkKey hashes group chunkIdx = some key) :
    chunkKey grown group chunkIdx = some key := by
  obtain ⟨later, rfl⟩ := prefixed
  obtain ⟨blockHash, found, same⟩ := Option.map_eq_some_iff.mp known
  apply Option.map_eq_some_iff.mpr
  refine ⟨blockHash, ?_, same⟩
  rw [List.getElem?_append_left (List.getElem?_eq_some_iff.mp found).1]
  exact found

/-- Chunks of one group with the same key are the same chunk. -/
theorem chunk_key_injective (distinct : hashes.Nodup) (positive : 0 < group.hashesPerChunk)
    {first second : Nat} {key : OffloadKey} (isFirst : chunkKey hashes group first = some key)
    (isSecond : chunkKey hashes group second = some key) : first = second := by
  obtain ⟨firstHash, foundFirst, rfl⟩ := Option.map_eq_some_iff.mp isFirst
  obtain ⟨secondHash, foundSecond, same⟩ := Option.map_eq_some_iff.mp isSecond
  have same : secondHash = firstHash := congrArg OffloadKey.blockHash same
  subst same
  obtain ⟨firstBelow, firstIs⟩ := List.getElem?_eq_some_iff.mp foundFirst
  obtain ⟨secondBelow, secondIs⟩ := List.getElem?_eq_some_iff.mp foundSecond
  have positions := (List.Nodup.getElem_inj_iff distinct).mp (firstIs.trans secondIs.symm)
  have products : group.hashesPerChunk * first = group.hashesPerChunk * second := by omega
  exact Nat.eq_of_mul_eq_mul_left positive products

theorem group_hashed_nodup (hashed : GroupHashed hashes group keys) (distinct : hashes.Nodup)
    (positive : 0 < group.hashesPerChunk) : keys.Nodup := by
  rw [List.nodup_iff_injective_getElem]
  intro first second same
  have same : keys[first.val] = keys[second.val] := same
  apply Fin.ext
  apply chunk_key_injective distinct positive
  · exact hashed first _ (List.getElem?_eq_getElem first.isLt)
  · rw [same]
    exact hashed second _ (List.getElem?_eq_getElem second.isLt)

theorem group_hashed_idx (hashed : GroupHashed hashes group keys) {key : OffloadKey}
    (member : key ∈ keys) : key.groupIdx = group.groupIdx := by
  obtain ⟨chunkIdx, found⟩ := List.getElem?_of_mem member
  obtain ⟨_, _, rfl⟩ := Option.map_eq_some_iff.mp (hashed chunkIdx key found)
  rfl

/-- The slice takes every `step`-th hash that there is. -/
theorem islice_eq_map (hashes : List BlockHash) (start : Nat) {step : Nat} (positive : 0 < step) :
    RequestOffloadState.islice hashes start step =
      (List.range (cdiv (hashes.length - start) step)).map fun index =>
        hashes.getD (start + index * step) [] := by
  unfold RequestOffloadState.islice
  rw [← List.filterMap_eq_map]
  apply List.filterMap_congr
  intro index member
  have inside := (lt_cdiv_iff positive).mp (List.mem_range.mp member)
  have below : start + index * step < hashes.length := by
    rw [Nat.mul_comm]
    omega
  rw [Function.comp_apply, List.getD_eq_getElem?_getD, List.getElem?_eq_getElem below]
  rfl

theorem islice_get {start step index : Nat} {blockHash : BlockHash} (positive : 0 < step)
    (found : (RequestOffloadState.islice hashes start step)[index]? = some blockHash) :
    hashes[start + index * step]? = some blockHash := by
  rw [islice_eq_map hashes start positive, List.getElem?_map] at found
  obtain ⟨same, inRange, found⟩ := Option.map_eq_some_iff.mp found
  obtain ⟨inside, isSame⟩ := List.getElem?_eq_some_iff.mp inRange
  rw [List.getElem_range] at isSame
  rw [List.length_range] at inside
  have inside := (lt_cdiv_iff positive).mp inside
  have below : start + index * step < hashes.length := by
    rw [Nat.mul_comm]
    omega
  rw [← found, ← isSame, List.getD_eq_getElem?_getD, List.getElem?_eq_getElem below]
  rfl

/-- The keys of the chunks that became complete are those after the known ones. -/
theorem group_hashed_new {req : Request} (hashed : GroupHashed req.blockHashes group keys)
    (positive : 0 < group.hashesPerChunk) :
    GroupHashed req.blockHashes group
      (keys ++ RequestOffloadState.newOffloadKeys req group keys.length) := by
  intro chunkIdx key found
  by_cases known : chunkIdx < keys.length
  · rw [List.getElem?_append_left known] at found
    exact hashed chunkIdx key found
  · rw [List.getElem?_append_right (Nat.le_of_not_lt known)] at found
    unfold RequestOffloadState.newOffloadKeys at found
    rw [List.getElem?_map] at found
    obtain ⟨blockHash, inSlice, rfl⟩ := Option.map_eq_some_iff.mp found
    have located := islice_get positive inSlice
    have position : group.hashesPerChunk * keys.length + group.hashesPerChunk - 1 +
        (chunkIdx - keys.length) * group.hashesPerChunk =
          group.hashesPerChunk * chunkIdx + group.hashesPerChunk - 1 := by
      obtain ⟨later, rfl⟩ := Nat.exists_eq_add_of_le (Nat.le_of_not_lt known)
      rw [Nat.add_sub_cancel_left, Nat.mul_comm later, Nat.mul_add]
      omega
    rw [position] at located
    exact Option.map_eq_some_iff.mpr ⟨blockHash, located, rfl⟩

end Keys

section Requests

/-- The hashes of a request are distinct, and its keys are those of its chunks. -/
structure Hashed (config : SchedulerOffloadConfig) (status : RequestOffloadState) : Prop where
  distinct : status.req.blockHashes.Nodup
  keyed : ∀ group ∈ config.kvGroupConfigs,
    GroupHashed status.req.blockHashes group (status.groupStates group.groupIdx).offloadKeys

variable {config : SchedulerOffloadConfig} {status after : RequestOffloadState}

theorem hashed_of_same (hashed : Hashed config status) (req : after.req = status.req)
    (keys : ∀ groupIdx, (after.groupStates groupIdx).offloadKeys =
      (status.groupStates groupIdx).offloadKeys) : Hashed config after := by
  constructor
  · rw [req]
    exact hashed.distinct
  · intro group member
    rw [req, keys]
    exact hashed.keyed group member

theorem hashed_map_offloaded (hashed : Hashed config status) (other : SchedulerOffloadConfig)
    {change : GroupOffloadConfig → RequestGroupState → RequestGroupState}
    (same : ∀ group state, (change group state).offloadKeys = state.offloadKeys) :
    Hashed config (status.mapOffloaded other change) := by
  refine hashed_of_same hashed rfl fun groupIdx => ?_
  unfold RequestOffloadState.mapOffloaded
  rw [RequestOffloadState.map_groups_states]
  split
  · rfl
  · exact same _ _

theorem hashed_update_offload_keys (hashed : Hashed config status) :
    Hashed config (status.updateOffloadKeys config) := by
  refine ⟨hashed.distinct, fun group member => ?_⟩
  unfold RequestOffloadState.updateOffloadKeys
  rw [map_offloaded_state config status _ member]
  exact group_hashed_new (hashed.keyed group member) (config.well_formed group member).hashes_pos

theorem hashed_with_request (hashed : Hashed config status) {req : Request}
    (grows : status.req.blockHashes <+: req.blockHashes) (distinct : req.blockHashes.Nodup) :
    Hashed config (status.withRequest req) :=
  ⟨distinct, fun group member chunkIdx key found =>
    chunk_key_grows grows (hashed.keyed group member chunkIdx key found)⟩

theorem hashed_new {req : Request} (reqContext : ReqContext) (policy : OffloadPolicy)
    (distinct : req.blockHashes.Nodup) :
    Hashed config (RequestOffloadState.new req reqContext policy) :=
  ⟨distinct, fun _ _ _ _ found => by cases found⟩

theorem hashed_skip_hit_chunks (hashed : Hashed config status) (other : SchedulerOffloadConfig)
    (numCachedTokens : Nat) : Hashed config (skipHitChunks other status numCachedTokens) := by
  unfold skipHitChunks
  split
  · exact hashed_map_offloaded hashed other fun _ _ => rfl
  · exact hashed

theorem hashed_zero_stale_of (hashed : Hashed config status) (other : SchedulerOffloadConfig)
    (allocated : Finset Nat) (ends : Option (Nat → Nat)) :
    Hashed config (zeroStaleOf other allocated ends status) := by
  apply hashed_map_offloaded hashed
  intro group state
  split
  · rfl
  · rfl

theorem hashed_update_block_id_groups {other : SchedulerOffloadConfig}
    {newBlockIdGroups : List (List Nat)} (hashed : Hashed config status)
    (updated : status.updateBlockIdGroups other newBlockIdGroups = .ok after) :
    Hashed config after := by
  obtain ⟨_, _, updated⟩ := bind_eq_ok.mp updated
  cases updated
  exact hashed_of_same hashed rfl fun _ => rfl

end Requests

section Offers

variable {M : Type} [OffloadingManager M] {offering : Offering} {group : GroupOffloadConfig}

/-- The keys of the chunks that a group may offer. -/
def offerable (offering : Offering) (group : GroupOffloadConfig) : List OffloadKey :=
  (offering.chunks group).map fun chunk => chunk.2.1

/-- Keys are added to the offer, each from the list and in its order. -/
def Adds (candidates before after : List OffloadKey) : Prop :=
  ∃ added, after = before ++ added ∧ added.Sublist candidates

omit [OffloadingManager M] in
theorem adds_nothing (candidates keys : List OffloadKey) : Adds candidates keys keys :=
  ⟨[], (List.append_nil keys).symm, List.nil_sublist candidates⟩

theorem adds_trans {first second before middle after : List OffloadKey}
    (left : Adds first before middle) (right : Adds second middle after) :
    Adds (first ++ second) before after := by
  obtain ⟨early, rfl, earlySub⟩ := left
  obtain ⟨late, rfl, lateSub⟩ := right
  exact ⟨early ++ late, List.append_assoc .., earlySub.append lateSub⟩

theorem offer_chunk_adds_own {chunk : Nat × OffloadKey × Nat} {offers last : Offers M}
    (offered : offering.offerChunk group chunk.1 chunk.2.1 chunk.2.2 offers = .ok last) :
    Adds [chunk.2.1] offers.keys last.keys := by
  have own : Adds [chunk.2.1] offers.keys (offers.keys ++ [chunk.2.1]) :=
    ⟨[chunk.2.1], rfl, List.Sublist.refl _⟩
  unfold Offering.offerChunk at offered
  split at offered
  · cases offered
    exact adds_nothing _ _
  · split at offered
    · cases offered
      exact adds_nothing _ _
    · split at offered
      · split at offered
        · cases offered
          exact adds_nothing _ _
        · obtain ⟨⟨result, manager⟩, _, offered⟩ := bind_eq_ok.mp offered
          dsimp only at offered
          split at offered
          · cases offered
            exact adds_nothing _ _
          · cases offered
            exact own
      · cases offered
        exact own

theorem offer_chunks_adds_own (chunks : List (Nat × OffloadKey × Nat)) {offers last : Offers M}
    (offered : offering.offerChunks group offers chunks = .ok last) :
    Adds (chunks.map fun chunk => chunk.2.1) offers.keys last.keys := by
  induction chunks generalizing offers with
  | nil =>
      cases offered
      exact adds_nothing _ _
  | cons chunk rest ih =>
      obtain ⟨middle, first, offered⟩ := bind_eq_ok.mp offered
      exact adds_trans (offer_chunk_adds_own first) (ih offered)

theorem offer_groups_adds_own (groups : List GroupOffloadConfig) {offers last : Offers M}
    (offered : offering.offerGroups offers groups = .ok last) :
    Adds (groups.flatMap (offerable offering)) offers.keys last.keys := by
  induction groups generalizing offers with
  | nil =>
      cases offered
      exact adds_nothing _ _
  | cons group rest ih =>
      obtain ⟨middle, first, offered⟩ := bind_eq_ok.mp offered
      rw [List.flatMap_cons]
      apply adds_trans _ (ih offered)
      unfold Offering.offerGroup at first
      split at first
      · cases first
        exact adds_nothing _ _
      · obtain ⟨_, _, first⟩ := bind_eq_ok.mp first
        exact offer_chunks_adds_own _ first

omit [OffloadingManager M] in
theorem offerable_sublist (offering : Offering) (group : GroupOffloadConfig) :
    (offerable offering group).Sublist
      (offering.status.groupStates group.groupIdx).offloadKeys := by
  have same : offerable offering group = ((offering.state group).offloadKeys.take
      (offering.numChunks group)).drop (offering.startChunkIdx group) := by
    unfold offerable Offering.chunks
    apply List.ext_getElem?
    intro index
    rw [List.getElem?_map, List.getElem?_mapIdx, Option.map_map]
    exact Option.map_id'
  rw [same]
  exact (List.drop_sublist _ _).trans (List.take_sublist _ _)

/-- What a request offers names no key twice. -/
theorem offered_nodup (hashed : Hashed offering.config offering.status) {offers last : Offers M}
    (none : offers.keys = [])
    (offered : offering.offerGroups offers offering.config.kvGroupConfigs = .ok last) :
    last.keys.Nodup := by
  obtain ⟨added, same, sub⟩ := offer_groups_adds_own _ offered
  rw [same, none, List.nil_append]
  apply List.Nodup.sublist sub
  rw [List.nodup_flatMap]
  constructor
  · intro group member
    exact (group_hashed_nodup (hashed.keyed group member) hashed.distinct
      (offering.config.well_formed group member).hashes_pos).sublist (offerable_sublist _ _)
  · apply offering.config.ordered.imp_of_mem
    intro first second firstMember secondMember less key inFirst inSecond
    have firstIdx := group_hashed_idx (hashed.keyed first firstMember)
      ((offerable_sublist offering first).subset inFirst)
    have secondIdx := group_hashed_idx (hashed.keyed second secondMember)
      ((offerable_sublist offering second).subset inSecond)
    omega

/-- The keys of a partial tail are of different groups. -/
theorem boundary_keys_nodup {config : SchedulerOffloadConfig} {req : Request} {boundary : Nat}
    {keys : List OffloadKey} (made : config.kvGroupConfigs.mapM (fun group =>
      makeBoundaryKey config req group.groupIdx boundary) = .ok keys) : keys.Nodup := by
  have indices : ∀ (groups : List GroupOffloadConfig) (keys : List OffloadKey),
      groups.mapM (fun group => makeBoundaryKey config req group.groupIdx boundary) = .ok keys →
      keys.map OffloadKey.groupIdx = groups.map GroupOffloadConfig.groupIdx := by
    intro groups
    induction groups with
    | nil =>
        intro keys made
        cases made
        rfl
    | cons group rest ih =>
        intro keys made
        rw [List.mapM_cons] at made
        obtain ⟨key, isKey, made⟩ := bind_eq_ok.mp made
        obtain ⟨others, madeRest, made⟩ := bind_eq_ok.mp made
        cases made
        unfold makeBoundaryKey at isKey
        split at isKey
        · cases isKey
        · cases isKey
          exact congrArg (List.cons group.groupIdx) (ih others madeRest)
  apply List.Nodup.of_map OffloadKey.groupIdx
  rw [indices _ keys made]
  exact List.pairwise_map.mpr (config.ordered.imp fun less => less.ne)

end Offers

variable {M : Type}

/-- The keys of every tracked request are those of its chunks, and every offer was of distinct
keys. -/
structure ChunkKeyed (scheduler : OffloadingConnectorScheduler (Keeper M)) : Prop where
  hashed : ∀ reqId status, scheduler.reqStatus.get? reqId = some status →
    Hashed scheduler.config status
  distinct : ∀ offer ∈ offers scheduler.manager, offer.Nodup

section Writes

variable {scheduler after : OffloadingConnectorScheduler (Keeper M)}

theorem keyed_of_same (keyed : ChunkKeyed scheduler) (config : after.config = scheduler.config)
    (requests : after.reqStatus = scheduler.reqStatus)
    (offered : offers after.manager = offers scheduler.manager) : ChunkKeyed after := by
  constructor
  · rw [config, requests]
    exact keyed.hashed
  · rw [offered]
    exact keyed.distinct

theorem keyed_with_manager {manager : Keeper M} (keyed : ChunkKeyed scheduler)
    (offered : offers manager = offers scheduler.manager) :
    ChunkKeyed (scheduler.withManager manager) :=
  keyed_of_same keyed rfl rfl offered

theorem keyed_set (keyed : ChunkKeyed scheduler) {reqId : ReqId} {status : RequestOffloadState}
    (hashed : Hashed scheduler.config status) : ChunkKeyed (scheduler.setStatus reqId status) := by
  refine ⟨fun other later found => ?_, keyed.distinct⟩
  have written : (scheduler.reqStatus.set reqId status).get? other = some later := found
  rw [OrderedMap.get_set] at written
  split at written
  · cases written
    exact hashed
  · exact keyed.hashed other later written

theorem keyed_forget (keyed : ChunkKeyed scheduler) (reqId : ReqId) :
    ChunkKeyed (scheduler.forget reqId) := by
  refine ⟨fun other later found => ?_, keyed.distinct⟩
  have erased : (scheduler.reqStatus.erase reqId).get? other = some later := found
  rw [OrderedMap.get_erase] at erased
  split at erased
  · cases erased
  · exact keyed.hashed other later erased

theorem keyed_map (keyed : ChunkKeyed scheduler)
    {change : ReqId → RequestOffloadState → RequestOffloadState}
    (requests : after.reqStatus = scheduler.reqStatus.mapValues change)
    (config : after.config = scheduler.config)
    (offered : offers after.manager = offers scheduler.manager)
    (keeps : ∀ reqId status, Hashed scheduler.config status →
      Hashed scheduler.config (change reqId status)) : ChunkKeyed after := by
  constructor
  · intro reqId later found
    rw [requests, OrderedMap.get_map_values] at found
    obtain ⟨earlier, isEarlier, rfl⟩ := Option.map_eq_some_iff.mp found
    rw [config]
    exact keeps reqId earlier (keyed.hashed reqId earlier isEarlier)
  · rw [offered]
    exact keyed.distinct

/-- The fences of a job leave the requests and the manager alone. -/
theorem keyed_fence_blocks (keyed : ChunkKeyed scheduler) (jobId : JobId) (blockIds : List Nat) :
    ChunkKeyed (scheduler.fenceBlocks jobId blockIds) := by
  obtain ⟨config, requests, _⟩ := fence_blocks_records jobId blockIds scheduler
  have manager := congrArg JobBooks.Desk.manager (desk_fence_blocks scheduler jobId blockIds)
  exact keyed_of_same keyed config requests (congrArg offers manager)

theorem keyed_enter_job {build : StoreBuild (Keeper M)} (keyed : ChunkKeyed build.scheduler)
    {status : RequestOffloadState} (hashed : Hashed build.scheduler.config status)
    (reqId : ReqId) (gpuSpec : GPULoadStoreSpec) (output : PrepareStoreOutput)
    (fenced deferred : List Nat) :
    ChunkKeyed (build.enterJob reqId status gpuSpec output fenced deferred).scheduler := by
  have jobHashed : Hashed build.scheduler.config
      (status.withTransferJob build.scheduler.jobCounter) :=
    hashed_of_same hashed rfl fun _ => rfl
  have counted : ChunkKeyed { build.scheduler with jobCounter := build.scheduler.jobCounter + 1 } :=
    keyed_of_same keyed rfl rfl rfl
  have entered := @keyed_set M _ counted reqId _ jobHashed
  exact keyed_of_same (keyed_fence_blocks entered build.scheduler.jobCounter fenced) rfl rfl rfl

theorem record_blocks_keyed {ends later : BlockIdEnds} {data : ReqData}
    (keyed : ChunkKeyed scheduler)
    (recorded : recordBlocks scheduler ends data = .ok (after, later)) : ChunkKeyed after := by
  obtain ⟨status, found, recorded⟩ := bind_eq_ok.mp recorded
  have updated := hashed_update_offload_keys (keyed.hashed _ status (status_of_ok found))
  have cleared : Hashed scheduler.config (if data.preempted then
      (status.updateOffloadKeys scheduler.config).clearBlockIds
      else status.updateOffloadKeys scheduler.config) := by
    split
    · exact hashed_of_same updated rfl fun _ => rfl
    · exact updated
  dsimp only at recorded
  split at recorded
  · cases recorded
    exact keyed_set keyed cleared
  · obtain ⟨extended, groups, recorded⟩ := bind_eq_ok.mp recorded
    cases recorded
    exact keyed_of_same (keyed_set keyed (hashed_update_block_id_groups cleared groups)) rfl rfl rfl

theorem record_all_blocks_keyed (data : List ReqData)
    {scheduler : OffloadingConnectorScheduler (Keeper M)} {ends later : BlockIdEnds}
    (keyed : ChunkKeyed scheduler)
    (recorded : recordAllBlocks scheduler ends data = .ok (after, later)) : ChunkKeyed after := by
  induction data generalizing scheduler ends with
  | nil =>
      cases recorded
      exact keyed
  | cons first rest ih =>
      obtain ⟨⟨middle, ends⟩, first, recorded⟩ := bind_eq_ok.mp recorded
      exact ih (record_blocks_keyed keyed first) recorded

end Writes

section Builds

variable [OffloadingManager M] {scheduler after : OffloadingConnectorScheduler (Keeper M)}
  {build done : StoreBuild (Keeper M)}

omit [OffloadingManager M] in
theorem flush_preempted_keyed (reqIds : List ReqId)
    {scheduler : OffloadingConnectorScheduler (Keeper M)} (keyed : ChunkKeyed scheduler)
    (flushed : flushPreempted scheduler reqIds = .ok after) : ChunkKeyed after := by
  induction reqIds generalizing scheduler with
  | nil =>
      cases flushed
      exact keyed
  | cons reqId rest ih =>
      unfold flushPreempted at flushed
      split at flushed
      · exact ih keyed flushed
      · obtain ⟨_, _, flushed⟩ := bind_eq_ok.mp flushed
        refine ih ?_ flushed
        exact keyed_of_same keyed rfl rfl rfl

/-- Before the tails are offered. -/
theorem before_tails_keyed {output : SchedulerOutput} (keyed : ChunkKeyed scheduler)
    (began : beforeTails scheduler output = .ok after) : ChunkKeyed after := by
  obtain ⟨updated, recorded, began⟩ := bind_eq_ok.mp began
  obtain ⟨manager, call, began⟩ := bind_eq_ok.mp began
  obtain ⟨flushed, flushing, began⟩ := bind_eq_ok.mp began
  cases began
  obtain ⟨⟨recording, ends⟩, recordings, recorded⟩ := bind_eq_ok.mp recorded
  cases recorded
  have zeroed : ChunkKeyed (zeroStaleBlocks recording ends) :=
    @keyed_map M recording _ (record_all_blocks_keyed _ keyed recordings)
      (fun reqId status => zeroStaleOf recording.config recording.currentBatchAllocatedBlockIds
        (ends.get? reqId) status) rfl rfl rfl
      fun _ _ hashed => hashed_zero_stale_of hashed _ _ _
  have ended := keyed_with_manager zeroed (on_schedule_end_recorded call).2.offers
  exact keyed_of_same (flush_preempted_keyed _ ended flushing) rfl rfl rfl

/-- The manager once it was offered distinct keys. -/
theorem keyed_offered {manager : Keeper M} {keys : List OffloadKey} {reqContext : ReqContext}
    {bypassThreshold : Bool} {output : Option PrepareStoreOutput} (keyed : ChunkKeyed scheduler)
    (distinct : keys.Nodup)
    (call : OffloadingManager.prepareStore scheduler.manager keys reqContext bypassThreshold =
      .ok (output, manager)) : ChunkKeyed (scheduler.withManager manager) := by
  refine ⟨keyed.hashed, fun offer member => ?_⟩
  have member : offer ∈ offers manager := member
  rw [(prepare_store_recorded call).2.2] at member
  rcases List.mem_append.mp member with earlier | last
  · exact keyed.distinct offer earlier
  · rw [List.mem_singleton.mp last]
    exact distinct

theorem store_partial_tail_keyed {reqId : ReqId} {status : RequestOffloadState}
    {entries : List PartialTailOffload} {boundary : Nat} (keyed : ChunkKeyed build.scheduler)
    (found : build.scheduler.reqStatus.get? reqId = some status)
    (stored : storePartialTail build reqId status entries boundary = .ok done) :
    ChunkKeyed done.scheduler := by
  obtain ⟨keys, made, stored⟩ := bind_eq_ok.mp stored
  obtain ⟨_, _, stored⟩ := bind_eq_ok.mp stored
  obtain ⟨⟨output, manager⟩, call, stored⟩ := bind_eq_ok.mp stored
  have offered := keyed_offered keyed (boundary_keys_nodup made) call
  cases output with
  | none =>
      cases stored
      exact offered
  | some output =>
      dsimp only at stored
      split at stored
      · cases stored
        exact offered
      · obtain ⟨accepted, _, stored⟩ := bind_eq_ok.mp stored
        obtain ⟨gpuSpec, _, stored⟩ := bind_eq_ok.mp stored
        cases stored
        exact @keyed_enter_job M (build.withScheduler (build.scheduler.withManager manager))
          offered _ (keyed.hashed reqId status found) reqId gpuSpec output _ _

theorem build_partial_tail_jobs_keyed (handoffs : List (ReqId × List PartialTailOffload))
    {build : StoreBuild (Keeper M)} (keyed : ChunkKeyed build.scheduler)
    (built : buildPartialTailJobs build handoffs = .ok done) : ChunkKeyed done.scheduler := by
  induction handoffs generalizing build with
  | nil =>
      cases built
      exact keyed
  | cons handoff rest ih =>
      obtain ⟨reqId, entries⟩ := handoff
      obtain ⟨middle, stored, built⟩ := bind_eq_ok.mp built
      apply ih _ built
      unfold partialTailJob at stored
      dsimp only at stored
      split at stored
      · rename_i found
        obtain ⟨_, _, stored⟩ := bind_eq_ok.mp stored
        obtain ⟨_, _, stored⟩ := bind_eq_ok.mp stored
        obtain ⟨_, _, stored⟩ := bind_eq_ok.mp stored
        obtain ⟨_, _, stored⟩ := bind_eq_ok.mp stored
        obtain ⟨_, _, stored⟩ := bind_eq_ok.mp stored
        obtain ⟨_, _, stored⟩ := bind_eq_ok.mp stored
        split at stored
        · cases stored
          exact keyed
        · exact store_partial_tail_keyed keyed found stored
      · cases stored

theorem store_accepted_keyed {reqId : ReqId} {offering : Offering} {output : PrepareStoreOutput}
    (keyed : ChunkKeyed build.scheduler)
    (hashed : Hashed build.scheduler.config offering.status)
    (stored : storeAccepted build reqId offering output = .ok done) :
    ChunkKeyed done.scheduler := by
  obtain ⟨manager, touched, stored⟩ := bind_eq_ok.mp stored
  obtain ⟨gpuSpec, _, stored⟩ := bind_eq_ok.mp stored
  obtain ⟨_, _, stored⟩ := bind_eq_ok.mp stored
  have told := keyed_with_manager keyed
    (asked_recorded (touch_asked offering.status.reqContext touched)).offers
  have advanced : Hashed build.scheduler.config
      (offering.status.advanceStoredIdx offering.config offering.numOffloadableTokens) :=
    hashed_map_offloaded hashed _ fun _ _ => rfl
  have entered := @keyed_enter_job M (build.withScheduler (build.scheduler.withManager manager))
    told _ advanced reqId gpuSpec output (fencedIds offering output.keysToStore)
      (deferredIds offering output.keysToStore)
  dsimp only at stored
  split at stored
  · cases stored
    exact keyed_of_same (keyed_fence_blocks entered build.scheduler.jobCounter
      (deferredIds offering output.keysToStore)) rfl rfl rfl
  · cases stored
    exact entered

theorem store_request_keyed {output : SchedulerOutput} {reqId : ReqId}
    (keyed : ChunkKeyed build.scheduler)
    (stored : storeRequest output build reqId = .ok done) : ChunkKeyed done.scheduler := by
  unfold storeRequest at stored
  split at stored
  · cases stored
    exact keyed
  · rename_i status found
    obtain ⟨numTokens, _, stored⟩ := bind_eq_ok.mp stored
    obtain ⟨offers, offered, stored⟩ := bind_eq_ok.mp stored
    have hashed := keyed.hashed reqId status found
    have asked := keyed_with_manager keyed (asked_recorded (offer_groups_asked _ offered)).offers
    have distinct := @offered_nodup _ _ ⟨build.scheduler.config, build.scheduler.settings, status,
      status.calcNumOffloadableTokens build.scheduler.config numTokens⟩ hashed _ _ rfl offered
    have advanced : Hashed build.scheduler.config (status.advanceStoredIdx build.scheduler.config
        (status.calcNumOffloadableTokens build.scheduler.config numTokens)) :=
      hashed_map_offloaded hashed _ fun _ _ => rfl
    unfold storeOffers at stored
    dsimp only at stored
    split at stored
    · cases stored
      exact keyed_set asked advanced
    · obtain ⟨⟨accepted, manager⟩, call, stored⟩ := bind_eq_ok.mp stored
      have told := keyed_offered asked distinct call
      cases accepted with
      | none =>
          cases stored
          exact told
      | some accepted =>
          dsimp only at stored
          split at stored
          · cases stored
            exact keyed_of_same (@keyed_set M _ told reqId _ advanced) rfl rfl rfl
          · exact store_accepted_keyed told hashed stored

theorem store_requests_keyed {output : SchedulerOutput} (reqIds : List ReqId)
    {build : StoreBuild (Keeper M)} (keyed : ChunkKeyed build.scheduler)
    (stored : storeRequests output build reqIds = .ok done) : ChunkKeyed done.scheduler := by
  induction reqIds generalizing build with
  | nil =>
      cases stored
      exact keyed
  | cons reqId rest ih =>
      obtain ⟨middle, first, stored⟩ := bind_eq_ok.mp stored
      exact ih (store_request_keyed keyed first) stored

theorem signal_finished_keyed (reqIds : List ReqId)
    {scheduler : OffloadingConnectorScheduler (Keeper M)} (keyed : ChunkKeyed scheduler)
    (signaled : signalFinished scheduler reqIds = .ok after) : ChunkKeyed after := by
  induction reqIds generalizing scheduler with
  | nil =>
      cases signaled
      exact keyed
  | cons reqId rest ih =>
      unfold signalFinished at signaled
      split at signaled
      · exact ih keyed signaled
      · rename_i status found
        obtain ⟨manager, call, signaled⟩ := bind_eq_ok.mp signaled
        have told := keyed_with_manager keyed (on_request_finished_recorded call).2.offers
        have flagged := @keyed_set M _ told reqId { status with finishedSignaled := true }
          (hashed_of_same (keyed.hashed reqId status found) rfl fun _ => rfl)
        apply ih _ signaled
        split
        · exact keyed_forget flagged reqId
        · exact flagged

theorem build_connector_meta_keyed {output : SchedulerOutput}
    {connectorMeta : OffloadingConnectorMetadata} (keyed : ChunkKeyed scheduler)
    (built : buildConnectorMeta scheduler output = .ok (connectorMeta, after)) :
    ChunkKeyed after := by
  obtain ⟨begun, tails, stores, signaled, beginning, tailed, stored, signaling, rfl⟩ :=
    build_connector_meta_stages built
  have begunKeyed := before_tails_keyed keyed beginning
  have tailsKeyed : ChunkKeyed tails.scheduler := by
    unfold buildPartialTailStoreJobs at tailed
    split at tailed
    · exact build_partial_tail_jobs_keyed _ begunKeyed tailed
    · cases tailed
      exact begunKeyed
  have storesKeyed := store_requests_keyed _ tailsKeyed stored
  exact keyed_of_same (signal_finished_keyed _ storesKeyed signaling) rfl rfl rfl

end Builds

section Calls

variable [OffloadingManager M] {scheduler after : OffloadingConnectorScheduler (Keeper M)}

theorem on_new_request_keyed {req : Request} (keyed : ChunkKeyed scheduler)
    (distinct : req.blockHashes.Nodup) : ChunkKeyed (scheduler.onNewRequest req) := by
  have told : ChunkKeyed (scheduler.withManager
      (OffloadingManager.onNewRequest scheduler.manager (createReqContext req)).2) :=
    keyed_with_manager keyed rfl
  exact keyed_set told (hashed_new _ _ distinct)

omit [OffloadingManager M] in
theorem request_changed_keyed {req : Request} (keyed : ChunkKeyed scheduler)
    (distinct : req.blockHashes.Nodup)
    (grows : ∀ status, scheduler.reqStatus.get? req.requestId = some status →
      status.req.blockHashes <+: req.blockHashes) : ChunkKeyed (scheduler.requestChanged req) := by
  refine ⟨fun reqId later found => ?_, keyed.distinct⟩
  have modified : (scheduler.reqStatus.modify req.requestId fun status =>
      status.withRequest req).get? reqId = some later := found
  rw [OrderedMap.get_modify] at modified
  split at modified
  · rename_i same
    obtain ⟨earlier, isEarlier, rfl⟩ := Option.map_eq_some_iff.mp modified
    exact hashed_with_request (keyed.hashed _ earlier isEarlier)
      (grows earlier (same ▸ isEarlier)) distinct
  · exact keyed.hashed reqId later modified

theorem fresh_lookup_keyed {status later : RequestOffloadState} {numHitTokens : Option Nat}
    {manager : Keeper M} {config : SchedulerOffloadConfig} (hashed : Hashed config status)
    (looked : scheduler.freshLookup status = .ok (numHitTokens, later, manager)) :
    Hashed config later ∧ offers manager = offers scheduler.manager := by
  constructor
  · unfold OffloadingConnectorScheduler.freshLookup at looked
    split at looked
    · cases looked
      exact hashed
    · obtain ⟨⟨answer, lookedManager⟩, _, looked⟩ := bind_eq_ok.mp looked
      cases looked
      exact hashed_of_same hashed rfl fun _ => rfl
  · exact (asked_recorded (fresh_lookup_asked looked).1).offers

theorem get_num_keyed {reqId : ReqId} {numComputedTokens : Nat}
    {answer : OffloadingConnectorScheduler.Matched} (keyed : ChunkKeyed scheduler)
    (called : scheduler.getNumNewMatchedTokens reqId numComputedTokens = .ok (answer, after)) :
    ChunkKeyed after := by
  unfold OffloadingConnectorScheduler.getNumNewMatchedTokens at called
  obtain ⟨status, found, called⟩ := bind_eq_ok.mp called
  have hashed := keyed.hashed reqId status (status_of_ok found)
  have noted : ∀ staleHit, Hashed scheduler.config (status.clearBlockIds.withStaleHit staleHit) :=
    fun _ => hashed_of_same hashed rfl fun _ => rfl
  have gated : ∀ clock staleHit, ChunkKeyed ((scheduler.withClock clock).setStatus reqId
      (status.clearBlockIds.withStaleHit staleHit)) := fun clock staleHit =>
    @keyed_set M (scheduler.withClock clock) (keyed_of_same keyed rfl rfl rfl) _ _
      (noted staleHit)
  dsimp only at called
  split at called
  · cases called
    exact keyed_set keyed (hashed_of_same hashed rfl fun _ => rfl)
  · split at called
    · cases called
      exact gated _ _
    · split at called
      · cases called
        exact gated _ _
      · rename_i unpinned clock _
        obtain ⟨⟨numHitTokens, looked, manager⟩, lookup, answered⟩ := bind_eq_ok.mp called
        have updated := hashed_update_offload_keys (noted unpinned)
        have started : Hashed scheduler.config { (status.clearBlockIds.withStaleHit
            unpinned).updateOffloadKeys scheduler.config with
            numLocallyComputedTokens := numComputedTokens } :=
          hashed_of_same updated rfl fun _ => rfl
        obtain ⟨asked, offered⟩ := fresh_lookup_keyed started lookup
        have told : ChunkKeyed ((scheduler.withManager manager).withClock clock) :=
          keyed_of_same keyed rfl rfl offered
        unfold OffloadingConnectorScheduler.answerHit at answered
        dsimp only at answered
        split at answered
        · rename_i blocked later _
          cases answered
          exact @keyed_set M (((scheduler.withManager manager).withClock clock).withClock later)
            (keyed_of_same told rfl rfl rfl) _ _ (hashed_of_same asked rfl fun _ => rfl)
        · obtain ⟨last, touched, answered⟩ := bind_eq_ok.mp answered
          have touched := (asked_recorded (touch_asked looked.reqContext touched)).offers
          have counted : Hashed scheduler.config (looked.updateNumHitChunks scheduler.config
              (numComputedTokens + numHitTokens.getD 0)) :=
            hashed_map_offloaded asked _ fun _ _ => rfl
          generalize StaleHitLadder.StaleHit.climb _ _ _ _ _ = climbed at answered
          obtain ⟨fallsBack, climbed, clock⟩ := climbed
          have noticed : Hashed scheduler.config ((looked.updateNumHitChunks scheduler.config
              (numComputedTokens + numHitTokens.getD 0)).withStaleHit climbed) :=
            hashed_of_same counted rfl fun _ => rfl
          have ticked : ChunkKeyed ((((scheduler.withManager manager).withClock _).withManager
              last).withClock clock) :=
            keyed_of_same (keyed_with_manager told touched) rfl rfl rfl
          have set := @keyed_set M _ ticked reqId _ noticed
          dsimp only at answered
          split at answered
          · cases answered
            exact set
          · cases answered
            exact set

theorem update_state_after_alloc_keyed {reqId : ReqId} {blocks : List (List KVCacheBlock)}
    {numExternalTokens : Nat} (keyed : ChunkKeyed scheduler)
    (allocated : updateStateAfterAlloc scheduler reqId blocks numExternalTokens = .ok after) :
    ChunkKeyed after := by
  unfold updateStateAfterAlloc at allocated
  split at allocated
  · cases allocated
    exact keyed
  · obtain ⟨status, found, allocated⟩ := bind_eq_ok.mp allocated
    obtain ⟨_, _, allocated⟩ := bind_eq_ok.mp allocated
    obtain ⟨plan, _, allocated⟩ := bind_eq_ok.mp allocated
    obtain ⟨⟨cpuBlockIds, manager⟩, call, allocated⟩ := bind_eq_ok.mp allocated
    obtain ⟨gpuSpec, _, allocated⟩ := bind_eq_ok.mp allocated
    obtain ⟨_, _, allocated⟩ := bind_eq_ok.mp allocated
    cases allocated
    have skipped := hashed_skip_hit_chunks (keyed.hashed reqId status (status_of_ok found))
      scheduler.config (status.numLocallyComputedTokens + numExternalTokens)
    have told := keyed_with_manager keyed (prepare_load_recorded call).2.2
    have entered := @keyed_set M _ told reqId (((skipHitChunks scheduler.config status
        (status.numLocallyComputedTokens + numExternalTokens)).withTransferJob
          scheduler.jobCounter).withPartialTail none) (hashed_of_same skipped rfl fun _ => rfl)
    exact keyed_of_same entered rfl rfl rfl

omit [OffloadingManager M] in
theorem drop_fences_keyed {jobId : JobId} {job : TransferJobStatus} {isFinished : Bool}
    (keyed : ChunkKeyed scheduler)
    (dropped : dropFences scheduler jobId job isFinished = .ok after) : ChunkKeyed after := by
  rw [drop_fences_eq] at dropped
  split at dropped
  · cases dropped
    exact keyed
  · split at dropped
    · cases dropped
      exact keyed_of_same keyed rfl rfl rfl
    · cases dropped

omit [OffloadingManager M] in
theorem drop_job_keyed {jobId : JobId} {reqId : ReqId} {status : RequestOffloadState}
    (keyed : ChunkKeyed scheduler) (hashed : Hashed scheduler.config status)
    (dropped : dropJob scheduler jobId reqId status = .ok after) : ChunkKeyed after := by
  have erased : ChunkKeyed { scheduler with jobs := scheduler.jobs.erase jobId } :=
    keyed_of_same keyed rfl rfl rfl
  unfold dropJob at dropped
  dsimp only at dropped
  split at dropped
  · split at dropped
    · cases dropped
      exact keyed_forget erased reqId
    · cases dropped
      exact @keyed_set M _ erased reqId
        { status with transferJobs := status.transferJobs.erase jobId }
        (hashed_of_same hashed rfl fun _ => rfl)
  · cases dropped

theorem completed_offers {manager last : Keeper M} {job : TransferJobStatus}
    {reqContext : ReqContext} (call : JobBooks.completionCall manager job reqContext = .ok last) :
    offers last = offers manager := by
  unfold JobBooks.completionCall at call
  split at call
  · exact (complete_store_recorded call).2.offers
  · exact (complete_load_recorded call).2.offers

theorem report_job_keyed {jobId : JobId} {count : Int} (keyed : ChunkKeyed scheduler)
    (reported : reportJob scheduler jobId count = .ok after) : ChunkKeyed after := by
  obtain ⟨_, _, reported⟩ := bind_eq_ok.mp reported
  split at reported
  · cases reported
    exact keyed
  · obtain ⟨job, _, reported⟩ := bind_eq_ok.mp reported
    dsimp only at reported
    split at reported
    · cases reported
      exact keyed_of_same keyed rfl rfl rfl
    · obtain ⟨_, _, finished⟩ := bind_eq_ok.mp reported
      obtain ⟨status, found, finished⟩ := bind_eq_ok.mp finished
      obtain ⟨completed, call, finished⟩ := bind_eq_ok.mp finished
      obtain ⟨unfenced, removed, dropped⟩ := bind_eq_ok.mp finished
      have hashed := keyed.hashed job.reqId status (status_of_ok found)
      rw [complete_transfer_eq] at call
      obtain ⟨manager, call, told_eq⟩ := map_eq_ok.mp call
      have toldKeyed : ChunkKeyed completed := by
        rw [← told_eq]
        exact keyed_of_same keyed rfl rfl (completed_offers call)
      have config : unfenced.config = scheduler.config := by
        rw [(drop_fences_records removed).1, ← told_eq]
        rfl
      refine drop_job_keyed (drop_fences_keyed toldKeyed removed) ?_ dropped
      rw [config]
      exact hashed

theorem update_connector_output_keyed (reports : List (JobId × Int))
    {scheduler : OffloadingConnectorScheduler (Keeper M)} (keyed : ChunkKeyed scheduler)
    (updated : updateConnectorOutput scheduler reports = .ok after) : ChunkKeyed after := by
  induction reports generalizing scheduler with
  | nil =>
      cases updated
      exact keyed
  | cons entry rest ih =>
      obtain ⟨middle, reported, updated⟩ := bind_eq_ok.mp updated
      exact ih (report_job_keyed keyed reported) updated

omit [OffloadingManager M] in
theorem fence_deferred_keyed (jobIds : List JobId)
    {scheduler : OffloadingConnectorScheduler (Keeper M)} (keyed : ChunkKeyed scheduler)
    (fenced : fenceDeferred scheduler jobIds = .ok after) : ChunkKeyed after := by
  induction jobIds generalizing scheduler with
  | nil =>
      cases fenced
      exact keyed
  | cons jobId rest ih =>
      obtain ⟨job, _, fenced⟩ := bind_eq_ok.mp fenced
      exact ih (keyed_fence_blocks keyed jobId _) fenced

theorem request_finished_keyed {req : Request} (keyed : ChunkKeyed scheduler)
    (distinct : req.blockHashes.Nodup)
    (grows : ∀ status, scheduler.reqStatus.get? req.requestId = some status →
      status.req.blockHashes <+: req.blockHashes)
    (finished : requestFinished scheduler req = .ok after) : ChunkKeyed after := by
  unfold requestFinished at finished
  split at finished
  · obtain ⟨manager, call, finished⟩ := bind_eq_ok.mp finished
    cases finished
    exact keyed_with_manager keyed (on_request_finished_recorded call).2.offers
  · rename_i status found
    have hashed := hashed_with_request (keyed.hashed _ status found) (grows status found) distinct
    exact fence_deferred_keyed _ (keyed_set keyed (hashed_update_offload_keys hashed)) finished

theorem drop_finished_keyed (entries : List (ReqId × RequestOffloadState))
    {scheduler : OffloadingConnectorScheduler (Keeper M)} (keyed : ChunkKeyed scheduler)
    (dropped : dropFinished scheduler entries = .ok after) : ChunkKeyed after := by
  induction entries generalizing scheduler with
  | nil =>
      cases dropped
      exact keyed
  | cons entry rest ih =>
      unfold dropFinished at dropped
      split at dropped
      · exact ih keyed dropped
      · split at dropped
        · exact ih (keyed_forget keyed _) dropped
        · obtain ⟨manager, call, dropped⟩ := bind_eq_ok.mp dropped
          have told := keyed_with_manager keyed (on_request_finished_recorded call).2.offers
          exact ih (keyed_forget told _) dropped

theorem reset_cache_keyed (keyed : ChunkKeyed scheduler)
    (reset : resetCache scheduler = .ok after) : ChunkKeyed after := by
  obtain ⟨_, _, reset⟩ := bind_eq_ok.mp reset
  obtain ⟨_, _, reset⟩ := bind_eq_ok.mp reset
  obtain ⟨_, _, reset⟩ := bind_eq_ok.mp reset
  obtain ⟨dropped, dropping, reset⟩ := bind_eq_ok.mp reset
  obtain ⟨manager, call, reset⟩ := bind_eq_ok.mp reset
  cases reset
  have flushing : ChunkKeyed { scheduler with
      currentBatchJobsToFlush := scheduler.jobs.keys.toFinset } :=
    keyed_of_same keyed rfl rfl rfl
  have finished := drop_finished_keyed _ flushing dropping
  have told := keyed_with_manager finished (reset_cache_recorded call).2.offers
  exact @keyed_map M _ _ told (fun _ status => resetStatus status) rfl rfl rfl fun _ _ hashed =>
    hashed_of_same hashed rfl fun _ => rfl

end Calls

section Runs

/-- The hashes of a request are distinct and are only ever added to. -/
def HashesGrow (scheduler : OffloadingConnectorScheduler M) : ConnectorEvent → Prop
  | .newRequest req => req.blockHashes.Nodup
  | .requestChanged req => req.blockHashes.Nodup ∧
      ∀ status ∈ scheduler.reqStatus.get? req.requestId,
        status.req.blockHashes <+: req.blockHashes
  | .requestFinished req => req.blockHashes.Nodup ∧
      ∀ status ∈ scheduler.reqStatus.get? req.requestId,
        status.req.blockHashes <+: req.blockHashes
  | _ => True

instance (scheduler : OffloadingConnectorScheduler M) (event : ConnectorEvent) :
    Decidable (HashesGrow scheduler event) :=
  match event with
  | .newRequest _ => inferInstanceAs (Decidable (List.Nodup _))
  | .requestChanged _ => inferInstanceAs (Decidable (_ ∧ ∀ status ∈ _, _ <+: _))
  | .requestFinished _ => inferInstanceAs (Decidable (_ ∧ ∀ status ∈ _, _ <+: _))
  | .getNumNewMatchedTokens _ _ => .isTrue trivial
  | .updateStateAfterAlloc _ _ _ => .isTrue trivial
  | .buildConnectorMeta _ => .isTrue trivial
  | .updateConnectorOutput _ => .isTrue trivial
  | .resetCache => .isTrue trivial

variable [OffloadingManager M]

theorem apply_keyed {state after : RunState (Keeper M)} {event : ConnectorEvent}
    (keyed : ChunkKeyed state.scheduler) (grows : HashesGrow state.scheduler event)
    (applied : state.apply event = .ok after) : ChunkKeyed after.scheduler := by
  cases event with
  | newRequest req =>
      cases applied
      exact on_new_request_keyed keyed grows
  | requestChanged req =>
      cases applied
      exact request_changed_keyed keyed grows.1 grows.2
  | getNumNewMatchedTokens reqId numComputedTokens =>
      obtain ⟨⟨answer, scheduler⟩, called, applied⟩ := bind_eq_ok.mp applied
      cases applied
      exact get_num_keyed keyed called
  | updateStateAfterAlloc reqId blocks numExternalTokens =>
      obtain ⟨scheduler, called, applied⟩ := bind_eq_ok.mp applied
      cases applied
      exact update_state_after_alloc_keyed keyed called
  | buildConnectorMeta output =>
      obtain ⟨⟨connectorMeta, scheduler⟩, called, applied⟩ := bind_eq_ok.mp applied
      cases applied
      exact build_connector_meta_keyed keyed called
  | updateConnectorOutput completedJobs =>
      obtain ⟨scheduler, called, applied⟩ := bind_eq_ok.mp applied
      cases applied
      exact update_connector_output_keyed completedJobs keyed called
  | requestFinished req =>
      obtain ⟨scheduler, called, applied⟩ := bind_eq_ok.mp applied
      cases applied
      exact request_finished_keyed keyed grows.1 grows.2 called
  | resetCache =>
      obtain ⟨scheduler, called, applied⟩ := bind_eq_ok.mp applied
      cases applied
      exact reset_cache_keyed keyed called

omit [OffloadingManager M] in
theorem start_keyed (config : SchedulerOffloadConfig) (settings : ConnectorSettings)
    (mambaAlignSize : Option Nat) (manager : M) (clock : StaleHitLadder.Clock) :
    ChunkKeyed (RunState.start config settings mambaAlignSize
      (⟨⟨manager, {}⟩, {}⟩ : Keeper M) clock).scheduler := by
  constructor
  · intro reqId status found
    cases found
  · intro offer member
    cases member

/-- The keys of the tracked requests and of the offers made for them. -/
structure KeysExact (state : RunState (Keeper M)) : Prop where
  in_order : ∀ reqId status, state.scheduler.reqStatus.get? reqId = some status →
    ∀ group ∈ state.scheduler.config.kvGroupConfigs,
      GroupHashed status.req.blockHashes group
        (status.groupStates group.groupIdx).offloadKeys
  once : ∀ reqId status, state.scheduler.reqStatus.get? reqId = some status →
    ∀ group ∈ state.scheduler.config.kvGroupConfigs,
      (status.groupStates group.groupIdx).offloadKeys.Nodup
  offered_once : ∀ offer ∈ offers state.scheduler.manager, offer.Nodup

/-- In every run in which hashes are distinct and only added to: the keys of a request are
those of its chunks in order, each once, and so is every key of an offer. -/
theorem chunk_keys_exact {config : SchedulerOffloadConfig} {settings : ConnectorSettings}
    {mambaAlignSize : Option Nat} {manager : M} {clock : StaleHitLadder.Clock}
    {state : RunState (Keeper M)}
    (reaches : EventRuns.Reaches RunState.apply
      (fun state event => HashesGrow state.scheduler event)
      (RunState.start config settings mambaAlignSize ⟨⟨manager, {}⟩, {}⟩ clock)
      state) : KeysExact state := by
  have keyed : ChunkKeyed state.scheduler := by
    apply @EventRuns.reaches_invariant _ _ _ _ _
      (fun state : RunState (Keeper M) => ChunkKeyed state.scheduler) _ _ ?_
      (start_keyed config settings mambaAlignSize manager clock) reaches
    exact fun before event after keyed grows applied => apply_keyed keyed grows applied
  refine ⟨?_, ?_, keyed.distinct⟩
  · exact fun reqId status found group member => (keyed.hashed reqId status found).keyed group member
  · intro reqId status found group member
    have hashed := keyed.hashed reqId status found
    exact group_hashed_nodup (hashed.keyed group member) hashed.distinct
      (state.scheduler.config.well_formed group member).hashes_pos

end Runs

abbrev GrowingManager := Keeper (CpuManager.CPUOffloadingManager LruPolicy.LRUCachePolicy)

def growingStart : RunState GrowingManager :=
  RunState.start (.fromSpec JobLedger.duoSpec) {} none
    ⟨⟨.new { numBlocks := 4 } (.new 4), {}⟩, {}⟩ ⟨fun _ => 0, 0⟩

/-- A prompt of two chunks is stored, and then the chunk that was decoded after it. -/
def growingEvents : List ConnectorEvent :=
  [.newRequest ⟨0, 4, 4, 0, [[0], [1]], .unfinished, false, .all, none⟩,
    .buildConnectorMeta
      { reqData := [⟨0, [[5, 6]], false⟩]
        newReqIds := [0]
        numScheduledTokens := OrderedMap.empty.set 0 4 },
    .requestChanged ⟨0, 6, 4, 4, [[0], [1], [2]], .unfinished, false, .all, none⟩,
    .buildConnectorMeta
      { reqData := [⟨0, [[7]], false⟩]
        numScheduledTokens := OrderedMap.empty.set 0 2 }]

theorem growing_keys_exact :
    ∃ state : RunState GrowingManager, KeysExact state ∧
      (state.scheduler.reqStatus.get? 0).map (fun status =>
        (status.groupStates 0).offloadKeys) = some [⟨[0], 0⟩, ⟨[1], 0⟩, ⟨[2], 0⟩] ∧
      offers state.scheduler.manager = [[⟨[0], 0⟩, ⟨[1], 0⟩], [⟨[2], 0⟩]] := by
  have ran : (EventRuns.replay RunState.apply
      (fun state event => HashesGrow state.scheduler event) growingStart growingEvents).map
      (fun state => ((state.scheduler.reqStatus.get? 0).map (fun status =>
        (status.groupStates 0).offloadKeys), offers state.scheduler.manager)) =
      some (some [⟨[0], 0⟩, ⟨[1], 0⟩, ⟨[2], 0⟩],
        [[⟨[0], 0⟩, ⟨[1], 0⟩], [⟨[2], 0⟩]]) := by decide +kernel
  obtain ⟨state, reaches, seen⟩ := EventRuns.exists_of_replay ran
  exact ⟨state, chunk_keys_exact reaches, Prod.mk.inj seen⟩

end KvOffload.ChunkKeys
