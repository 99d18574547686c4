import KvOffload.ArcPolicy
import KvOffload.ConnectorLoads
import KvOffload.CpuManagerSpec
import KvOffload.GpuTransfer
import KvOffload.LruPolicy
import KvOffload.SparseTables

/-!
# Scheduler and worker agree on loads

The keys and the GPU spec of a load job decode into the copies the blocks need: each
pending GPU block of a group receives its sub-block of the CPU block whose key covers
the block's chunk.
-/

namespace KvOffload.LoadTransfer

open KvOffload KvOffload.Base KvOffload.ConnectorConfig KvOffload.ConnectorRequests
open KvOffload.ManagerInterface KvOffload.ConnectorScheduler KvOffload.ConnectorLoads
open KvOffload.GpuTransfer KvOffload.SparseTables KvOffload.PolicyInterface
open KvOffload.LruPolicy KvOffload.ArcPolicy KvOffload.CpuManager KvOffload.CpuPool
open KvOffload.CpuManagerSpec KvOffload.Tiering

set_option autoImplicit false

section Groups

variable {config : SchedulerOffloadConfig} {status : RequestOffloadState}
  {numCachedTokens : Nat} {blocks : List (List KVCacheBlock)} {group : GroupOffloadConfig}

variable (config status group) in
/-- The key that covers a chunk: the last chunk of a partial tail has its boundary key. -/
def coveringKey (numChunks chunkIdx : Nat) : Option OffloadKey :=
  match status.partialTailBoundary with
  | none => (status.groupStates group.groupIdx).offloadKeys[chunkIdx]?
  | some boundary =>
      if chunkIdx + 1 = numChunks then
        (makeBoundaryKey config status.req group.groupIdx boundary).toOption
      else (status.groupStates group.groupIdx).offloadKeys[chunkIdx]?

theorem pending_keys_cover {startChunkIdx numChunks : Nat} {keys : List OffloadKey}
    (pending : pendingKeys config status group startChunkIdx numChunks = .ok keys)
    (starts : startChunkIdx < numChunks) :
    keys.length = numChunks - startChunkIdx ∧ ∀ index < keys.length,
      keys[index]? = coveringKey config status group numChunks (startChunkIdx + index) := by
  unfold pendingKeys at pending
  obtain ⟨_, enough, pending⟩ := bind_eq_ok.mp pending
  have enough := py_assert_eq_ok.mp enough
  unfold coveringKey
  cases tail : status.partialTailBoundary with
  | none =>
      simp only [tail, Option.isSome_none, Bool.toNat_false, Nat.sub_zero] at pending enough
      cases pending
      have length : (((status.groupStates group.groupIdx).offloadKeys.take numChunks).drop
          startChunkIdx).length = numChunks - startChunkIdx := by
        rw [List.length_drop, List.length_take]
        omega
      refine ⟨length, fun index within => ?_⟩
      rw [length] at within
      rw [List.getElem?_drop, List.getElem?_take_of_lt (by omega)]
  | some boundary =>
      simp only [tail, Option.isSome_some, Bool.toNat_true] at pending enough
      obtain ⟨key, made, done⟩ := bind_eq_ok.mp pending
      cases done
      have length : (((status.groupStates group.groupIdx).offloadKeys.take (numChunks - 1)).drop
          startChunkIdx).length = numChunks - 1 - startChunkIdx := by
        rw [List.length_drop, List.length_take]
        omega
      have total : (((status.groupStates group.groupIdx).offloadKeys.take (numChunks - 1)).drop
          startChunkIdx ++ [key]).length = numChunks - startChunkIdx := by
        rw [List.length_append, length, List.length_singleton]
        omega
      refine ⟨total, fun index within => ?_⟩
      rw [total] at within
      simp only
      by_cases last : startChunkIdx + index + 1 = numChunks
      · have here : index = numChunks - 1 - startChunkIdx := by omega
        rw [if_pos last, List.getElem?_append_right (by omega), length, here, made]
        simp [Except.toOption]
      · rw [List.getElem?_append_left (by omega), List.getElem?_drop,
          List.getElem?_take_of_lt (by omega), if_neg last]

/-- What the load of one group says: its pending blocks and the keys that cover them. -/
structure GroupLoaded (config : SchedulerOffloadConfig) (status : RequestOffloadState)
    (numCachedTokens : Nat) (groupBlocks : List KVCacheBlock) (group : GroupOffloadConfig)
    (load : GroupLoad) : Prop where
  enough : cdiv numCachedTokens group.tokensPerBlock ≤ groupBlocks.length
  computed : load.numLocallyComputedGpuBlocks =
    numLocallyComputed (groupBlocks.take (cdiv numCachedTokens group.tokensPerBlock))
  pending : load.numPendingGpuBlocks =
    cdiv numCachedTokens group.tokensPerBlock - load.numLocallyComputedGpuBlocks
  blockIds : load.blockIds = ((groupBlocks.take (cdiv numCachedTokens group.tokensPerBlock)).drop
    load.numLocallyComputedGpuBlocks).map KVCacheBlock.blockId
  keys : load.keys.length = if load.numPendingGpuBlocks = 0 then 0 else
    cdiv (load.numPendingGpuBlocks +
      load.numLocallyComputedGpuBlocks % config.blocksPerChunk) config.blocksPerChunk
  covers : ∀ index < load.keys.length, load.keys[index]? = coveringKey config status group
    (cdiv numCachedTokens group.tokensPerChunk)
    (load.numLocallyComputedGpuBlocks / config.blocksPerChunk + index)

/-- Counting the chunks of the pending blocks with ceilings, over tokens or over blocks. -/
theorem pending_chunks {group : GroupOffloadConfig} {blocksPerChunk : Nat}
    (wellFormed : group.WellFormed blocksPerChunk) (positive : 0 < blocksPerChunk)
    {numCachedTokens numComputed : Nat}
    (pending : numComputed < cdiv numCachedTokens group.tokensPerBlock) :
    numComputed / blocksPerChunk < cdiv numCachedTokens group.tokensPerChunk ∧
      cdiv numCachedTokens group.tokensPerChunk - numComputed / blocksPerChunk =
        cdiv (cdiv numCachedTokens group.tokensPerBlock - numComputed +
          numComputed % blocksPerChunk) blocksPerChunk := by
  have split := Nat.div_add_mod numComputed blocksPerChunk
  rw [wellFormed.chunk_eq, ← cdiv_cdiv _ wellFormed.block_pos positive]
  generalize cdiv numCachedTokens group.tokensPerBlock = numGpuBlocks at pending ⊢
  have whole : numGpuBlocks - numComputed + numComputed % blocksPerChunk +
      blocksPerChunk * (numComputed / blocksPerChunk) = numGpuBlocks := by omega
  have counted := cdiv_add_mul (numGpuBlocks - numComputed + numComputed % blocksPerChunk)
    (numComputed / blocksPerChunk) positive
  rw [whole] at counted
  constructor
  · rw [lt_cdiv_iff positive]
    omega
  · omega

theorem load_group_loaded (member : group ∈ config.kvGroupConfigs) {load : GroupLoad}
    (loaded : loadGroup config status numCachedTokens blocks group = .ok load) :
    ∃ groupBlocks, blocks[group.groupIdx]? = some groupBlocks ∧
      GroupLoaded config status numCachedTokens groupBlocks group load := by
  unfold loadGroup at loaded
  cases found : blocks[group.groupIdx]? with
  | none => simp [found] at loaded
  | some groupBlocks =>
      simp only [found] at loaded
      obtain ⟨_, enough, loaded⟩ := bind_eq_ok.mp loaded
      obtain ⟨_, _, loaded⟩ := bind_eq_ok.mp loaded
      obtain ⟨_, _, loaded⟩ := bind_eq_ok.mp loaded
      obtain ⟨keys, listed, done⟩ := bind_eq_ok.mp loaded
      unfold keysOfPending at listed
      cases done
      refine ⟨groupBlocks, rfl, py_assert_eq_ok.mp enough, rfl, rfl, rfl, ?_, ?_⟩
      · split at listed
        · rename_i none
          cases listed
          exact (if_pos none).symm
        · rename_i some
          obtain ⟨starts, counted⟩ := pending_chunks (config.well_formed group member)
            config.blocks_pos (Nat.lt_of_sub_pos (Nat.pos_of_ne_zero some))
          rw [if_neg some, (pending_keys_cover listed starts).1, counted]
      · intro index within
        split at listed
        · cases listed
          cases within
        · rename_i some
          obtain ⟨starts, _⟩ := pending_chunks (config.well_formed group member)
            config.blocks_pos (Nat.lt_of_sub_pos (Nat.pos_of_ne_zero some))
          exact (pending_keys_cover listed starts).2 index within

theorem GroupLoaded.block_ids_length {groupBlocks : List KVCacheBlock} {load : GroupLoad}
    (loaded : GroupLoaded config status numCachedTokens groupBlocks group load) :
    load.blockIds.length = load.numPendingGpuBlocks := by
  have enough := loaded.enough
  rw [loaded.blockIds, List.length_map, List.length_drop, List.length_take, loaded.pending]
  omega

/-- The groups of a plan with what is loaded for each. -/
abbrev Loads := List (GroupOffloadConfig × GroupLoad)

theorem plan_loads_spec (groups : List GroupOffloadConfig) {plan after : LoadPlan}
    (planned : planLoads config status numCachedTokens blocks plan groups = .ok after) :
    ∃ loads : Loads, loads.map Prod.fst = groups ∧
      (∀ entry ∈ loads,
        loadGroup config status numCachedTokens blocks entry.1 = .ok entry.2) ∧
      after = loads.foldl (fun plan entry => plan.add entry.1 entry.2) plan := by
  induction groups generalizing plan with
  | nil =>
      cases planned
      exact ⟨[], rfl, by simp, rfl⟩
  | cons group rest ih =>
      unfold planLoads at planned
      obtain ⟨load, loaded, planned⟩ := bind_eq_ok.mp planned
      obtain ⟨loads, covered, each, reached⟩ := ih planned
      refine ⟨(group, load) :: loads, by rw [List.map_cons, covered], ?_, reached⟩
      intro entry member
      rcases List.mem_cons.mp member with rfl | later
      · exact loaded
      · exact each entry later

/-- The block at an index still has to be filled. -/
def PendingAt (groupBlocks : List KVCacheBlock) (index : Nat) : Prop :=
  ∃ block ∈ groupBlocks[index]?, block.isPending

instance (groupBlocks : List KVCacheBlock) : DecidablePred (PendingAt groupBlocks) :=
  fun index => inferInstanceAs (Decidable (∃ block ∈ groupBlocks[index]?, block.isPending))

/-- What the KV cache manager allocates to a group: up to the cached tokens, blocks that
are pending from one of them on. None of these holds a computed token, in a window group
each reaches into the window, and the chunks of a group that has some have keys. -/
structure GroupAllocated (config : SchedulerOffloadConfig) (status : RequestOffloadState)
    (numCachedTokens : Nat) (groupBlocks : List KVCacheBlock) (group : GroupOffloadConfig) :
    Prop where
  enough : cdiv numCachedTokens group.tokensPerBlock ≤ groupBlocks.length
  contiguous : ∀ later < cdiv numCachedTokens group.tokensPerBlock, ∀ earlier ≤ later,
    PendingAt groupBlocks earlier → PendingAt groupBlocks later
  computed : ∀ index < cdiv numCachedTokens group.tokensPerBlock, PendingAt groupBlocks index →
    status.numLocallyComputedTokens ≤ index * group.tokensPerBlock
  window : ∀ window ∈ group.slidingWindowSizeInChunks,
    ∀ index < cdiv numCachedTokens group.tokensPerBlock, PendingAt groupBlocks index →
    numCachedTokens < (index + 1) * group.tokensPerBlock + window * group.tokensPerChunk
  keys : ∀ index < cdiv numCachedTokens group.tokensPerBlock, PendingAt groupBlocks index →
    ∀ chunkIdx < cdiv numCachedTokens group.tokensPerChunk,
      (coveringKey config status group (cdiv numCachedTokens group.tokensPerChunk)
        chunkIdx).isSome

instance (config : SchedulerOffloadConfig) (status : RequestOffloadState)
    (numCachedTokens : Nat) (groupBlocks : List KVCacheBlock) (group : GroupOffloadConfig) :
    Decidable (GroupAllocated config status numCachedTokens groupBlocks group) :=
  decidable_of_iff (_ ∧ _ ∧ _ ∧ _ ∧ _)
    ⟨fun all => ⟨all.1, all.2.1, all.2.2.1, all.2.2.2.1, all.2.2.2.2⟩,
      fun all => ⟨all.enough, all.contiguous, all.computed, all.window, all.keys⟩⟩

section FirstPending

variable {groupBlocks : List KVCacheBlock} {numGpuBlocks : Nat}

theorem first_pending_le : numLocallyComputed (groupBlocks.take numGpuBlocks) ≤ numGpuBlocks :=
  List.findIdx_le_length.trans (List.length_take_le _ _)

theorem first_pending
    (some : numLocallyComputed (groupBlocks.take numGpuBlocks) < numGpuBlocks)
    (enough : numGpuBlocks ≤ groupBlocks.length) :
    PendingAt groupBlocks (numLocallyComputed (groupBlocks.take numGpuBlocks)) := by
  have within : numLocallyComputed (groupBlocks.take numGpuBlocks) <
      (groupBlocks.take numGpuBlocks).length := by
    rw [List.length_take]
    omega
  have found := List.getElem?_eq_getElem within
  rw [List.getElem?_take_of_lt some] at found
  exact ⟨_, found, @List.findIdx_getElem _ _ _ within⟩

theorem first_pending_first {index : Nat} (within : index < numGpuBlocks)
    (pending : PendingAt groupBlocks index) :
    numLocallyComputed (groupBlocks.take numGpuBlocks) ≤ index := by
  obtain ⟨block, found, isPending⟩ := pending
  by_contra later
  rw [Nat.not_le] at later
  have foundTake : (groupBlocks.take numGpuBlocks)[index]? = some block := by
    rw [List.getElem?_take_of_lt within, found]
  obtain ⟨inTake, atIndex⟩ := List.getElem?_eq_some_iff.mp foundTake
  have notPending := List.not_of_lt_findIdx later
  rw [atIndex, isPending] at notPending
  cases notPending

end FirstPending

theorem pending_keys_ok {startChunkIdx numChunks : Nat} (positive : 0 < numChunks)
    (covered : ∀ chunkIdx < numChunks,
      (coveringKey config status group numChunks chunkIdx).isSome) :
    ∃ keys, pendingKeys config status group startChunkIdx numChunks = .ok keys := by
  unfold pendingKeys
  unfold coveringKey at covered
  cases tail : status.partialTailBoundary with
  | none =>
      simp only [tail] at covered
      have enough : numChunks ≤ (status.groupStates group.groupIdx).offloadKeys.length := by
        by_contra short
        have := covered _ (Nat.not_le.mp short)
        simp at this
      simp only [Option.isSome_none, Bool.toNat_false, Nat.sub_zero, py_assert_of enough, ok_bind]
      exact ⟨_, rfl⟩
  | some boundary =>
      simp only [tail] at covered
      have enough : numChunks - 1 ≤ (status.groupStates group.groupIdx).offloadKeys.length := by
        by_contra short
        have last := covered (status.groupStates group.groupIdx).offloadKeys.length (by omega)
        rw [if_neg (by omega)] at last
        simp at last
      have boundaryKey := covered (numChunks - 1) (by omega)
      rw [if_pos (by omega)] at boundaryKey
      simp only [Option.isSome_some, Bool.toNat_true, py_assert_of enough, ok_bind]
      cases made : makeBoundaryKey config status.req group.groupIdx boundary with
      | error error => simp [made, Except.toOption] at boundaryKey
      | ok key => exact ⟨_, rfl⟩

/-- The assertions of `update_state_after_alloc` hold for an allocated group. -/
theorem load_group_ok (member : group ∈ config.kvGroupConfigs)
    {groupBlocks : List KVCacheBlock} (found : blocks[group.groupIdx]? = some groupBlocks)
    (cached : status.numLocallyComputedTokens ≤ numCachedTokens)
    (allocated : GroupAllocated config status numCachedTokens groupBlocks group) :
    ∃ load, loadGroup config status numCachedTokens blocks group = .ok load := by
  have wellFormed := config.well_formed group member
  have blockPos := wellFormed.block_pos
  have first := @first_pending groupBlocks (cdiv numCachedTokens group.tokensPerBlock)
  have total := (cdiv_le_iff blockPos).mp (le_refl (cdiv numCachedTokens group.tokensPerBlock))
  unfold loadGroup
  simp only [found, py_assert_of allocated.enough, ok_bind]
  have bound := @first_pending_le groupBlocks (cdiv numCachedTokens group.tokensPerBlock)
  generalize numLocallyComputed
    (groupBlocks.take (cdiv numCachedTokens group.tokensPerBlock)) = numComputed at first bound ⊢
  have computed : status.numLocallyComputedTokens ≤ numComputed * group.tokensPerBlock := by
    rcases bound.lt_or_eq with some | none
    · exact allocated.computed _ some (first some allocated.enough)
    · rw [none, Nat.mul_comm]
      exact cached.trans total
  have windows : ∀ window ∈ group.slidingWindowSizeInChunks,
      cdiv numCachedTokens group.tokensPerBlock - numComputed ≤
        window * config.blocksPerChunk + 1 := by
    intro window isWindow
    rcases bound.lt_or_eq with some | none
    · have reaches := allocated.window window isWindow _ some (first some allocated.enough)
      have within : numCachedTokens ≤ group.tokensPerBlock *
          (numComputed + 1 + window * config.blocksPerChunk) := by
        rw [wellFormed.chunk_eq] at reaches
        calc numCachedTokens
            ≤ (numComputed + 1) * group.tokensPerBlock +
                window * (group.tokensPerBlock * config.blocksPerChunk) := reaches.le
          _ = _ := by ring
      have := (cdiv_le_iff blockPos).mpr within
      omega
    · omega
  rw [py_assert_of computed, ok_bind, py_assert_of windows, ok_bind]
  unfold keysOfPending
  split
  · exact ⟨_, rfl⟩
  · rename_i some
    have some : numComputed < cdiv numCachedTokens group.tokensPerBlock := by omega
    have starts := (pending_chunks wellFormed config.blocks_pos some).1
    obtain ⟨keys, listed⟩ := @pending_keys_ok _ _ _ (numComputed / config.blocksPerChunk) _
      (Nat.zero_lt_of_lt starts) (allocated.keys _ some (first some allocated.enough))
    rw [listed]
    exact ⟨_, rfl⟩

theorem plan_loads_ok (groups : List GroupOffloadConfig) (plan : LoadPlan)
    (members : ∀ group ∈ groups, group ∈ config.kvGroupConfigs)
    (cached : status.numLocallyComputedTokens ≤ numCachedTokens)
    (allocated : ∀ group ∈ groups, ∃ groupBlocks, blocks[group.groupIdx]? = some groupBlocks ∧
      GroupAllocated config status numCachedTokens groupBlocks group) :
    ∃ after, planLoads config status numCachedTokens blocks plan groups = .ok after := by
  induction groups generalizing plan with
  | nil => exact ⟨plan, rfl⟩
  | cons group rest ih =>
      obtain ⟨groupBlocks, found, here⟩ := allocated group List.mem_cons_self
      obtain ⟨load, loaded⟩ := load_group_ok (members group List.mem_cons_self) found cached here
      unfold planLoads
      rw [loaded, ok_bind]
      exact ih _ (fun other member => members other (List.mem_cons_of_mem _ member))
        fun other member => allocated other (List.mem_cons_of_mem _ member)

/-- The loads by group index. -/
def byIndex (loads : Loads) : List (Nat × GroupLoad) :=
  loads.map fun entry => (entry.1.groupIdx, entry.2)

/-- The loop over the groups appends keys and blocks, and fills the tables. -/
theorem add_loads (loads : Loads) (plan : LoadPlan) :
    loads.foldl (fun plan entry => plan.add entry.1 entry.2) plan =
      { keysToLoad := plan.keysToLoad ++ (byIndex loads).flatMap fun entry => entry.2.keys
        dstBlockIds := plan.dstBlockIds ++ (byIndex loads).flatMap fun entry => entry.2.blockIds
        groupSizes := fill GroupLoad.numPendingGpuBlocks plan.groupSizes (byIndex loads)
        blockIndices :=
          fill GroupLoad.numLocallyComputedGpuBlocks plan.blockIndices (byIndex loads) } := by
  induction loads generalizing plan with
  | nil => simp [byIndex, fill]
  | cons entry rest ih =>
      rw [List.foldl_cons, ih]
      simp [byIndex, fill, LoadPlan.add]

end Groups

section Parts

variable {config : SchedulerOffloadConfig} {loads : Loads}

theorem by_index_sorted (covered : loads.map Prod.fst = config.kvGroupConfigs) :
    ((byIndex loads).map Prod.fst).Pairwise fun first second => first < second := by
  have indices : (byIndex loads).map Prod.fst =
      config.kvGroupConfigs.map GroupOffloadConfig.groupIdx := by
    rw [← covered, byIndex, List.map_map, List.map_map]
    rfl
  rw [indices, List.pairwise_map]
  exact config.ordered

theorem by_index_bounded (covered : loads.map Prod.fst = config.kvGroupConfigs) :
    ∀ entry ∈ byIndex loads, entry.1 < config.numKvCacheGroups := by
  intro entry member
  obtain ⟨load, loadMember, rfl⟩ := List.mem_map.mp member
  apply config.bounded
  rw [← covered]
  exact List.mem_map_of_mem loadMember

variable (handler : SingleDirectionOffloadingHandler) (blockOf : OffloadKey → Nat)

/-- The part of a transfer that one group index contributes; most often none. -/
def loadPart (groupIdx : Nat) (load : Option GroupLoad) :
    SingleDirectionOffloadingHandler.GroupPart where
  entry :=
    { groupSize := (load.map GroupLoad.numPendingGpuBlocks).getD 0
      blockIndex := (load.map GroupLoad.numLocallyComputedGpuBlocks).getD 0
      refs := handler.layerRefsPerGroup.getD groupIdx [] }
  src := (load.map fun load => load.keys.map blockOf).getD []
  dst := (load.map GroupLoad.blockIds).getD []

def loadParts (loads : Loads) : List SingleDirectionOffloadingHandler.GroupPart :=
  (List.range handler.layerRefsPerGroup.length).map fun groupIdx =>
    loadPart handler blockOf groupIdx (assocGet (byIndex loads) groupIdx)

variable {handler blockOf}

/-- What the parts contribute, in the order of the groups. -/
theorem load_parts_flat_map {β : Type} (covered : loads.map Prod.fst = config.kvGroupConfigs)
    (groups : handler.layerRefsPerGroup.length = config.numKvCacheGroups)
    (collect : SingleDirectionOffloadingHandler.GroupPart → List β)
    (empty : ∀ groupIdx, collect (loadPart handler blockOf groupIdx none) = []) :
    (loadParts handler blockOf loads).flatMap collect = loads.flatMap fun entry =>
      collect (loadPart handler blockOf entry.1.groupIdx (some entry.2)) := by
  have bounded := by_index_bounded covered
  rw [← groups] at bounded
  rw [loadParts, List.flatMap_map,
    walk_entries (fun groupIdx load => collect (loadPart handler blockOf groupIdx load))
      (by_index_sorted covered) bounded empty, byIndex, List.flatMap_map]

theorem load_parts_entries (covered : loads.map Prod.fst = config.kvGroupConfigs)
    (groups : handler.layerRefsPerGroup.length = config.numKvCacheGroups)
    {gpuSpec : GPULoadStoreSpec}
    (sizes : gpuSpec.groupSizes = fill GroupLoad.numPendingGpuBlocks
      (List.replicate config.numKvCacheGroups 0) (byIndex loads))
    (indices : gpuSpec.blockIndices = fill GroupLoad.numLocallyComputedGpuBlocks
      (List.replicate config.numKvCacheGroups 0) (byIndex loads)) :
    handler.groupEntries gpuSpec = (loadParts handler blockOf loads).map
      SingleDirectionOffloadingHandler.GroupPart.entry := by
  have distinct : ((byIndex loads).map Prod.fst).Nodup :=
    (by_index_sorted covered).imp fun less => less.ne
  have layers := eq_map_range handler.layerRefsPerGroup []
  rw [groups] at layers
  unfold SingleDirectionOffloadingHandler.groupEntries
  rw [sizes, indices, fill_replicate _ _ _ distinct, fill_replicate _ _ _ distinct, layers,
    List.zip_map', List.zip_map', List.map_map, loadParts, groups, List.map_map]
  rfl

end Parts

section Decoding

variable {config : SchedulerOffloadConfig} {status : RequestOffloadState}
  {numCachedTokens : Nat} {blocks : List (List KVCacheBlock)} {loads : Loads}
  {handler : SingleDirectionOffloadingHandler} {blockOf : OffloadKey → Nat}

theorem src_blocks_on_load (onLoad : handler.gpuToCpu = false) :
    handler.srcBlocksPerChunk = handler.blocksPerChunk := by
  simp [SingleDirectionOffloadingHandler.srcBlocksPerChunk, onLoad]

theorem dst_blocks_on_load (onLoad : handler.gpuToCpu = false) :
    handler.dstBlocksPerChunk = 1 := by
  simp [SingleDirectionOffloadingHandler.dstBlocksPerChunk, onLoad]

theorem load_part_fits (onLoad : handler.gpuToCpu = false)
    (chunks : handler.blocksPerChunk = config.blocksPerChunk) {groupIdx : Nat}
    (within : groupIdx < handler.layerRefsPerGroup.length) {load : Option GroupLoad}
    (loaded : ∀ found ∈ load, ∃ groupBlocks group,
      GroupLoaded config status numCachedTokens groupBlocks group found) :
    handler.PartFits (loadPart handler blockOf groupIdx load) := by
  have known : handler.layerRefsPerGroup.getD groupIdx [] ∈ handler.layerRefsPerGroup := by
    simp [within]
  cases load with
  | none => exact ⟨known, by simp [loadPart], by simp [loadPart]⟩
  | some found =>
      obtain ⟨groupBlocks, group, loaded⟩ := loaded found rfl
      constructor
      · exact known
      · simp only [loadPart, Option.map_some, Option.getD_some, List.length_map,
          src_blocks_on_load onLoad, chunks]
        exact loaded.keys
      · simp only [loadPart, Option.map_some, Option.getD_some, dst_blocks_on_load onLoad,
          loaded.block_ids_length, Nat.mod_one, Nat.add_zero]
        split
        · assumption
        · simp [cdiv]

/-- The copies of one group are what the load is for: every pending block `i` of the group,
and no other block, receives sub-block `i % blocksPerChunk` of the CPU block of the key that
covers its chunk. -/
structure GroupCopied (config : SchedulerOffloadConfig) (status : RequestOffloadState)
    (numCachedTokens : Nat) (groupBlocks : List KVCacheBlock)
    (blockOf : OffloadKey → Option Nat) (group : GroupOffloadConfig)
    (copied : List SingleDirectionOffloadingHandler.Copy) : Prop where
  length : copied.length = cdiv numCachedTokens group.tokensPerBlock -
    numLocallyComputed (groupBlocks.take (cdiv numCachedTokens group.tokensPerBlock))
  placed : ∀ index < copied.length, ∀ logical, logical = index +
      numLocallyComputed (groupBlocks.take (cdiv numCachedTokens group.tokensPerBlock)) →
    ∃ key cpuBlock gpuBlock,
      coveringKey config status group (cdiv numCachedTokens group.tokensPerChunk)
        (logical / config.blocksPerChunk) = some key ∧
      blockOf key = some cpuBlock ∧ groupBlocks[logical]? = some gpuBlock ∧
      gpuBlock.isPending ∧
      copied[index]? =
        some ((cpuBlock, logical % config.blocksPerChunk), (gpuBlock.blockId, 0))
  all : ∀ logical < cdiv numCachedTokens group.tokensPerBlock, PendingAt groupBlocks logical →
    numLocallyComputed (groupBlocks.take (cdiv numCachedTokens group.tokensPerBlock)) ≤ logical

theorem group_copied {groupBlocks : List KVCacheBlock} {group : GroupOffloadConfig}
    {load : GroupLoad} (onLoad : handler.gpuToCpu = false)
    (chunks : handler.blocksPerChunk = config.blocksPerChunk)
    (loaded : GroupLoaded config status numCachedTokens groupBlocks group load)
    (allocated : GroupAllocated config status numCachedTokens groupBlocks group)
    {named : OffloadKey → Option Nat}
    (names : ∀ key ∈ load.keys, named key = some (blockOf key)) (groupIdx : Nat) :
    GroupCopied config status numCachedTokens groupBlocks named group
      (handler.copies (handler.partBlocks (loadPart handler blockOf groupIdx (some load)))) := by
  have size : (handler.copies (handler.partBlocks
      (loadPart handler blockOf groupIdx (some load)))).length = load.numPendingGpuBlocks := by
    simp [SingleDirectionOffloadingHandler.copies, SingleDirectionOffloadingHandler.partBlocks,
      loadPart]
  constructor
  · rw [size, loaded.pending, loaded.computed]
  · intro index within logical isLogical
    rw [size] at within
    rw [← loaded.computed] at isLogical
    have enough := loaded.enough
    have pending := loaded.pending
    have keys := loaded.keys
    rw [if_neg (Nat.ne_zero_of_lt within)] at keys
    have chunk := Nat.div_le_div_right (c := config.blocksPerChunk)
      (show load.numLocallyComputedGpuBlocks ≤ logical by omega)
    have inKeys : logical / config.blocksPerChunk -
        load.numLocallyComputedGpuBlocks / config.blocksPerChunk < load.keys.length := by
      rw [keys, lt_cdiv_iff config.blocks_pos, Nat.mul_sub]
      have whole := Nat.mul_div_le logical config.blocksPerChunk
      have base := Nat.div_add_mod load.numLocallyComputedGpuBlocks config.blocksPerChunk
      omega
    have covered := loaded.covers _ inKeys
    rw [List.getElem?_eq_getElem inKeys, Nat.add_sub_cancel' chunk] at covered
    have inBlocks : logical < groupBlocks.length := by omega
    have isPending : groupBlocks[logical].isPending := by
      obtain ⟨block, found, isPending⟩ := allocated.contiguous logical (by omega)
        load.numLocallyComputedGpuBlocks (by omega) (by
          rw [loaded.computed]
          exact first_pending (by rw [← loaded.computed]; omega) enough)
      obtain rfl := Option.some.inj ((List.getElem?_eq_getElem inBlocks).symm.trans found)
      exact isPending
    refine ⟨_, _, _, covered.symm, names _ (List.getElem_mem inKeys),
      List.getElem?_eq_getElem inBlocks, isPending, ?_⟩
    have dst : (load.blockIds)[index]? = some groupBlocks[logical].blockId := by
      rw [loaded.blockIds, List.getElem?_map, List.getElem?_drop, Nat.add_comm, ← isLogical,
        List.getElem?_take_of_lt (by omega), List.getElem?_eq_getElem inBlocks]
      rfl
    simp only [SingleDirectionOffloadingHandler.copies,
      SingleDirectionOffloadingHandler.partBlocks, loadPart, Option.map_some, Option.getD_some,
      List.getElem?_map, List.getElem?_range within, src_blocks_on_load onLoad,
      dst_blocks_on_load onLoad, chunks, slot_skip config.blocks_pos, ← isLogical]
    simp [slot, dst, inKeys, Nat.mod_one]
  · exact fun logical within pending => first_pending_first within pending

end Decoding

section Managers

/-- A manager whose loads name one CPU block for each key. -/
class NamesBlocks (M : Type) [OffloadingManager M] where
  blockOf : M → OffloadKey → Option Nat
  prepare_load : ∀ {manager after : M} {keys : List OffloadKey} {blockIds : List Nat},
    OffloadingManager.prepareLoad manager keys = .ok (blockIds, after) →
      keys.map (blockOf manager) = blockIds.map some

/-- Pinning a block does not move it. -/
class KeepsBlockIds (P : Type) [CachePolicy P] : Prop where
  set_ref_cnt : ∀ (policy : P) (key : OffloadKey) (refCnt : Int) (other : OffloadKey),
    (CachePolicy.get (CachePolicy.setRefCnt policy key refCnt) other).map BlockStatus.blockId =
      (CachePolicy.get policy other).map BlockStatus.blockId
  mark_non_evictable : ∀ {policy held : P} {key : OffloadKey},
    CachePolicy.markNonEvictable policy key = .ok held →
      ∀ other, CachePolicy.get held other = CachePolicy.get policy other

instance : KeepsBlockIds LRUCachePolicy where
  set_ref_cnt policy key refCnt other := by
    simp only [CachePolicy.get, CachePolicy.setRefCnt, LRUCachePolicy.setRefCnt,
      OrderedMap.get_modify]
    split
    · rw [Option.map_map]
      rfl
    · rfl
  mark_non_evictable := by
    intro policy held key marked other
    obtain ⟨_, _, done⟩ := bind_eq_ok.mp marked
    cases done
    rfl

instance : KeepsBlockIds ARCCachePolicy where
  set_ref_cnt policy key refCnt other := by
    simp only [CachePolicy.get, CachePolicy.setRefCnt, ARCCachePolicy.setRefCnt,
      ARCCachePolicy.get]
    split
    · simp only [OrderedMap.get_modify]
      split
      · cases policy.t1.get? other <;> rfl
      · rfl
    · simp only [OrderedMap.get_modify]
      split
      · cases policy.t1.get? other with
        | some block => rfl
        | none => cases policy.t2.get? other <;> rfl
      · rfl
  mark_non_evictable := by
    intro policy held key marked other
    cases marked
    rfl

variable {P : Type} [CachePolicy P] [KeepsBlockIds P]

def cpuBlockOf (manager : CPUOffloadingManager P) (key : OffloadKey) : Option Nat :=
  (manager.get key).map BlockStatus.blockId

theorem pin_block_names {manager after : CPUOffloadingManager P} {key : OffloadKey}
    {blockId : Nat} (pinned : manager.pinBlock key = .ok (blockId, after)) :
    cpuBlockOf manager key = some blockId ∧
      ∀ other, cpuBlockOf after other = cpuBlockOf manager other := by
  unfold CPUOffloadingManager.pinBlock at pinned
  cases bound : manager.get key with
  | none => simp [bound] at pinned
  | some block =>
      simp only [bound] at pinned
      obtain ⟨_, _, pinned⟩ := bind_eq_ok.mp pinned
      by_cases idle : block.refCnt = 0
      · simp only [idle, if_true] at pinned
        obtain ⟨policy, marked, pinned⟩ := bind_eq_ok.mp pinned
        obtain ⟨_, _, done⟩ := bind_eq_ok.mp pinned
        cases done
        refine ⟨by rw [cpuBlockOf, bound]; rfl, fun other => ?_⟩
        have same := KeepsBlockIds.mark_non_evictable marked other
        exact (KeepsBlockIds.set_ref_cnt policy key _ other).trans
          (congrArg (Option.map BlockStatus.blockId) same)
      · simp only [idle, if_false] at pinned
        cases pinned
        refine ⟨by rw [cpuBlockOf, bound]; rfl, fun other => ?_⟩
        exact KeepsBlockIds.set_ref_cnt manager.policy key _ other

theorem prepare_load_names (keys : List OffloadKey) {manager after : CPUOffloadingManager P}
    {blockIds : List Nat} (loaded : manager.prepareLoad keys = .ok (blockIds, after)) :
    keys.map (cpuBlockOf manager) = blockIds.map some := by
  induction keys generalizing manager blockIds with
  | nil =>
      cases loaded
      rfl
  | cons key rest ih =>
      obtain ⟨⟨blockId, pinned⟩, pinOk, loaded⟩ := bind_eq_ok.mp loaded
      obtain ⟨⟨others, later⟩, restOk, done⟩ := bind_eq_ok.mp loaded
      cases done
      obtain ⟨named, same⟩ := pin_block_names pinOk
      rw [List.map_cons, List.map_cons, named, ← ih restOk]
      congr 1
      exact List.map_congr_left fun other _ => (same other).symm

instance : NamesBlocks (CPUOffloadingManager P) where
  blockOf := cpuBlockOf
  prepare_load := prepare_load_names _

instance : NamesBlocks (TieringOffloadingManager P) where
  blockOf manager := cpuBlockOf manager.primaryTier
  prepare_load := by
    intro manager after keys blockIds loaded
    obtain ⟨⟨others, primaryTier⟩, primaryOk, done⟩ := bind_eq_ok.mp loaded
    cases done
    exact prepare_load_names _ primaryOk

end Managers

section Jobs

variable {M : Type} [OffloadingManager M] [NamesBlocks M]
  {scheduler : OffloadingConnectorScheduler M} {reqId : ReqId} {status : RequestOffloadState}
  {blocks : List (List KVCacheBlock)} {numCachedTokens numExternalTokens : Nat}
  {plan : LoadPlan} {manager : M} {cpuBlockIds : List Nat}
  {handler : SingleDirectionOffloadingHandler}

/-- The descriptors of a load with the given copies in each group. -/
def loadOps (handler : SingleDirectionOffloadingHandler)
    (copied : List (GroupOffloadConfig × List SingleDirectionOffloadingHandler.Copy)) :
    List CopyOp :=
  copied.flatMap fun entry =>
    (handler.layerRefsPerGroup.getD entry.1.groupIdx []).flatMap (handler.layerOps entry.2)

/-- The copies of a load are right in every group. -/
def AllCopied (config : SchedulerOffloadConfig) (status : RequestOffloadState)
    (numCachedTokens : Nat) (blocks : List (List KVCacheBlock))
    (blockOf : OffloadKey → Option Nat)
    (copied : List (GroupOffloadConfig × List SingleDirectionOffloadingHandler.Copy)) : Prop :=
  copied.map Prod.fst = config.kvGroupConfigs ∧ ∀ entry ∈ copied, ∃ groupBlocks,
    blocks[entry.1.groupIdx]? = some groupBlocks ∧
      GroupCopied config status numCachedTokens groupBlocks blockOf entry.1 entry.2

/-- The CPU block of a key that is known to have one. -/
def knownBlock (blockOf : OffloadKey → Option Nat) (key : OffloadKey) : Nat :=
  (blockOf key).getD 0

theorem named_keys {blockOf : OffloadKey → Option Nat} {keys : List OffloadKey}
    (named : keys.map blockOf = cpuBlockIds.map some) :
    (∀ key ∈ keys, blockOf key = some (knownBlock blockOf key)) ∧
      keys.map (knownBlock blockOf) = cpuBlockIds := by
  constructor
  · intro key member
    have inIds : blockOf key ∈ keys.map blockOf := List.mem_map_of_mem member
    rw [named] at inIds
    obtain ⟨blockId, _, found⟩ := List.mem_map.mp inIds
    rw [knownBlock, ← found]
    rfl
  · calc keys.map (knownBlock blockOf)
        = (keys.map blockOf).map fun blockId => blockId.getD 0 := by
          rw [List.map_map]
          rfl
      _ = cpuBlockIds := by
          rw [named, List.map_map]
          exact List.map_id cpuBlockIds

variable {config : SchedulerOffloadConfig} {blockOf : OffloadKey → Option Nat} {loads : Loads}

/-- The KV cache manager has allocated the blocks of every offloaded group. -/
def AllAllocated (config : SchedulerOffloadConfig) (status : RequestOffloadState)
    (numCachedTokens : Nat) (blocks : List (List KVCacheBlock)) : Prop :=
  ∀ group ∈ config.kvGroupConfigs, ∃ groupBlocks, blocks[group.groupIdx]? = some groupBlocks ∧
    GroupAllocated config status numCachedTokens groupBlocks group

instance (config : SchedulerOffloadConfig) (status : RequestOffloadState)
    (numCachedTokens : Nat) (blocks : List (List KVCacheBlock)) :
    Decidable (AllAllocated config status numCachedTokens blocks) :=
  inferInstanceAs (Decidable (∀ group ∈ config.kvGroupConfigs,
    ∃ groupBlocks ∈ blocks[group.groupIdx]?, GroupAllocated _ _ _ groupBlocks group))

/-- A key covers a chunk of the cached tokens. -/
def Covers (config : SchedulerOffloadConfig) (status : RequestOffloadState)
    (numCachedTokens : Nat) (key : OffloadKey) : Prop :=
  ∃ group ∈ config.kvGroupConfigs, ∃ chunkIdx < cdiv numCachedTokens group.tokensPerChunk,
    coveringKey config status group (cdiv numCachedTokens group.tokensPerChunk) chunkIdx =
      some key

/-- Every load of a plan is the load of an offloaded group. -/
def AllLoaded (config : SchedulerOffloadConfig) (status : RequestOffloadState)
    (numCachedTokens : Nat) (blocks : List (List KVCacheBlock)) (loads : Loads) : Prop :=
  loads.map Prod.fst = config.kvGroupConfigs ∧ ∀ entry ∈ loads, ∃ groupBlocks,
    blocks[entry.1.groupIdx]? = some groupBlocks ∧
      GroupLoaded config status numCachedTokens groupBlocks entry.1 entry.2

theorem load_parts_fit (loaded : AllLoaded config status numCachedTokens blocks loads)
    (onLoad : handler.gpuToCpu = false)
    (chunks : handler.blocksPerChunk = config.blocksPerChunk) :
    ∀ part ∈ loadParts handler (knownBlock blockOf) loads, handler.PartFits part := by
  intro part member
  obtain ⟨groupIdx, within, rfl⟩ := List.mem_map.mp member
  apply load_part_fits onLoad chunks (List.mem_range.mp within)
  intro found foundAt
  obtain ⟨entry, entryMember, same⟩ := List.mem_map.mp (assoc_get_mem foundAt)
  obtain ⟨groupBlocks, _, entryLoaded⟩ := loaded.2 entry entryMember
  cases same
  exact ⟨groupBlocks, entry.1, entryLoaded⟩

/-- The group sizes of a plan count its blocks. -/
theorem group_sizes_sum (loaded : AllLoaded config status numCachedTokens blocks loads) :
    (fill GroupLoad.numPendingGpuBlocks (List.replicate config.numKvCacheGroups 0)
      (byIndex loads)).sum = ((byIndex loads).flatMap fun entry => entry.2.blockIds).length := by
  have covered := loaded.1
  have distinct : ((byIndex loads).map Prod.fst).Nodup :=
    (by_index_sorted covered).imp fun less => less.ne
  rw [fill_sum _ _ distinct, List.sum_replicate_nat, Nat.mul_zero, Nat.zero_add,
    List.length_flatMap]
  · congr 1
    apply List.map_congr_left
    intro entry member
    obtain ⟨load, loadMember, rfl⟩ := List.mem_map.mp member
    obtain ⟨groupBlocks, _, groupLoaded⟩ := loaded.2 load loadMember
    exact groupLoaded.block_ids_length.symm
  · intro entry member
    rw [List.getElem?_replicate, if_pos (by_index_bounded covered entry member)]

/-- The copies that the parts of a plan make. -/
def loadCopies (handler : SingleDirectionOffloadingHandler) (blockOf : OffloadKey → Option Nat)
    (loads : Loads) :
    List (GroupOffloadConfig × List SingleDirectionOffloadingHandler.Copy) :=
  loads.map fun entry => (entry.1, handler.copies (handler.partBlocks
    (loadPart handler (knownBlock blockOf) entry.1.groupIdx (some entry.2))))

theorem loaded_groups (planned : planLoads config status numCachedTokens blocks
    (LoadPlan.start config.numKvCacheGroups) config.kvGroupConfigs = .ok plan) :
    ∃ loads, AllLoaded config status numCachedTokens blocks loads ∧
      plan = loads.foldl (fun plan entry => plan.add entry.1 entry.2)
        (LoadPlan.start config.numKvCacheGroups) := by
  obtain ⟨loads, covered, each, reached⟩ := plan_loads_spec _ planned
  refine ⟨loads, ⟨covered, fun entry member => ?_⟩, reached⟩
  have inConfig : entry.1 ∈ config.kvGroupConfigs := covered ▸ List.mem_map_of_mem member
  exact load_group_loaded inConfig (each entry member)

/-- What a plan loads covers chunks of the cached tokens. -/
theorem planned_keys_cover (planned : planLoads config status numCachedTokens blocks
    (LoadPlan.start config.numKvCacheGroups) config.kvGroupConfigs = .ok plan) :
    ∀ key ∈ plan.keysToLoad, Covers config status numCachedTokens key := by
  obtain ⟨loads, ⟨covered, each⟩, rfl⟩ := loaded_groups planned
  intro key member
  rw [add_loads] at member
  simp only [LoadPlan.start, List.nil_append, List.mem_flatMap, byIndex, List.mem_map] at member
  obtain ⟨_, ⟨entry, entryMember, rfl⟩, inKeys⟩ := member
  have inConfig : entry.1 ∈ config.kvGroupConfigs := covered ▸ List.mem_map_of_mem entryMember
  obtain ⟨groupBlocks, _, loaded⟩ := each entry entryMember
  obtain ⟨index, within, found⟩ := List.getElem_of_mem inKeys
  replace within : index < entry.2.keys.length := within
  have atIndex := loaded.covers index within
  rw [List.getElem?_eq_getElem within, found] at atIndex
  refine ⟨entry.1, inConfig, _, ?_, atIndex.symm⟩
  have keys := loaded.keys
  split at keys
  · omega
  · rename_i some
    have pending := loaded.pending
    have counted := pending_chunks (config.well_formed entry.1 inConfig) config.blocks_pos
      (Nat.lt_of_sub_pos (pending ▸ Nat.pos_of_ne_zero some))
    rw [pending, ← counted.2] at keys
    have starts := counted.1
    omega

/-- A plan makes a transfer spec. -/
theorem planned_spec_made (planned : planLoads config status numCachedTokens blocks
    (LoadPlan.start config.numKvCacheGroups) config.kvGroupConfigs = .ok plan) :
    ∃ gpuSpec, GPULoadStoreSpec.make plan.dstBlockIds plan.groupSizes plan.blockIndices =
      .ok gpuSpec := by
  obtain ⟨loads, loaded, rfl⟩ := loaded_groups planned
  rw [add_loads]
  simp only [LoadPlan.start, List.nil_append]
  exact ⟨_, gpu_spec_make_ok (group_sizes_sum loaded) (by rw [fill_length, fill_length])⟩

theorem load_spec_made (allocated : AllAllocated config status numCachedTokens blocks)
    (planned : planLoads config status numCachedTokens blocks
      (LoadPlan.start config.numKvCacheGroups) config.kvGroupConfigs = .ok plan)
    (named : plan.keysToLoad.map blockOf = cpuBlockIds.map some)
    (onLoad : handler.gpuToCpu = false)
    (chunks : handler.blocksPerChunk = config.blocksPerChunk)
    (groups : handler.layerRefsPerGroup.length = config.numKvCacheGroups) :
    ∃ gpuSpec copied,
      GPULoadStoreSpec.make plan.dstBlockIds plan.groupSizes plan.blockIndices = .ok gpuSpec ∧
      AllCopied config status numCachedTokens blocks blockOf copied ∧
      handler.transferAsync gpuSpec cpuBlockIds = .ok (loadOps handler copied) := by
  obtain ⟨loads, loaded, reached⟩ := loaded_groups planned
  have covered := loaded.1
  rw [add_loads] at reached
  subst reached
  simp only [LoadPlan.start, List.nil_append] at named ⊢
  obtain ⟨known, ids⟩ := named_keys named
  have src : (loadParts handler (knownBlock blockOf) loads).flatMap
      SingleDirectionOffloadingHandler.GroupPart.src = cpuBlockIds := by
    rw [load_parts_flat_map covered groups _ fun _ => rfl, ← ids, List.map_flatMap, byIndex,
      List.flatMap_map]
    rfl
  have dst : (loadParts handler (knownBlock blockOf) loads).flatMap
      SingleDirectionOffloadingHandler.GroupPart.dst =
        (byIndex loads).flatMap fun entry => entry.2.blockIds := by
    rw [load_parts_flat_map covered groups _ fun _ => rfl, byIndex, List.flatMap_map]
    rfl
  have sizes := group_sizes_sum loaded
  have indices : (fill GroupLoad.numLocallyComputedGpuBlocks
      (List.replicate config.numKvCacheGroups 0) (byIndex loads)).length =
        (fill GroupLoad.numPendingGpuBlocks
          (List.replicate config.numKvCacheGroups 0) (byIndex loads)).length := by
    rw [fill_length, fill_length]
  refine ⟨_, loadCopies handler blockOf loads, gpu_spec_make_ok sizes indices, ⟨?_, ?_⟩, ?_⟩
  · rw [loadCopies, List.map_map]
    exact covered
  · intro entry member
    obtain ⟨load, loadMember, rfl⟩ := List.mem_map.mp member
    obtain ⟨groupBlocks, found, groupLoaded⟩ := loaded.2 load loadMember
    obtain ⟨_, same, groupAllocated⟩ := allocated load.1
      (covered ▸ List.mem_map_of_mem loadMember)
    obtain rfl := Option.some.inj (found.symm.trans same)
    refine ⟨groupBlocks, found, group_copied onLoad chunks groupLoaded groupAllocated ?_ _⟩
    intro key inKeys
    apply known
    exact List.mem_flatMap.mpr ⟨_, List.mem_map_of_mem loadMember, inKeys⟩
  · have decoded := @SingleDirectionOffloadingHandler.transfer_async_ok handler
      ⟨_, _, _, sizes, indices⟩ cpuBlockIds (by simp [groups]) _
      (load_parts_fit loaded onLoad chunks) (load_parts_entries covered groups rfl rfl)
      (by rw [onLoad]; exact src) (by rw [onLoad]; exact dst)
    rw [decoded, load_parts_flat_map covered groups _ fun _ =>
      SingleDirectionOffloadingHandler.empty_part_ops rfl, loadOps, loadCopies, List.flatMap_map]
    rfl

end Jobs

def pairGroups : List OffloadingGroupConfig := [⟨2, 0⟩]

/-- One group with two blocks a chunk; both chunks of the request are ready. -/
def pairSpec : OffloadingSpec where
  groups := pairGroups
  kvCacheGroups := [⟨.fullAttention, false⟩]
  blocksPerChunk := 2
  tokensPerHash := 2
  worldSize := 1
  decodeContextParallelSize := 1
  offloadPromptOnly := false
  useEagle := false
  ordered := by decide
  bounded := by decide
  blocks_pos := Nat.two_pos
  hash_pos := Nat.two_pos
  hash_fits := by decide

def pairManager : CPUOffloadingManager LRUCachePolicy :=
  let manager := CPUOffloadingManager.new { numBlocks := 4 } (LRUCachePolicy.new 4)
  let keys := [makeOffloadKey [3] 0, makeOffloadKey [1] 0]
  ((manager.prepareStore keys true).bind fun stored =>
    stored.2.completeStore keys true).toOption.getD manager

def pairConfig : SchedulerOffloadConfig := .fromSpec pairSpec

def pairStatus : RequestOffloadState :=
  let req : Request := ⟨0, 9, 9, 0, [[0], [1], [2], [3]], .unfinished, false, .all, none⟩
  { (RequestOffloadState.new req (createReqContext req) .blockLevel).updateOffloadKeys
      pairConfig with numLocallyComputedTokens := 2 }

def pairScheduler : OffloadingConnectorScheduler (CPUOffloadingManager LRUCachePolicy) :=
  (OffloadingConnectorScheduler.new pairConfig {} none pairManager ⟨fun _ => 0, 0⟩).setStatus 0
    pairStatus

def pairBlocks : List (List KVCacheBlock) :=
  [[⟨7, false, true⟩, ⟨3, false, false⟩, ⟨4, false, false⟩, ⟨9, false, false⟩]]

def pairHandler : SingleDirectionOffloadingHandler where
  gpuTensors := [⟨1000, 16, 16⟩]
  cpuTensors := [⟨5000, 32, 32⟩]
  gpuToCpu := false
  blocksPerChunk := 2
  layerRefsPerGroup := [[⟨0, 16, [], 1, 0⟩]]
  canonicalLayout := false
  blocks_pos := Nat.two_pos
  tensors := by simp

theorem pair_manager_pool : PoolInv pairManager := by
  have policyInv : LawfulCachePolicy.Inv (LRUCachePolicy.new 4) := by
    intro key
    simp [LRUCachePolicy.new]
  obtain ⟨start, _⟩ := new_spec { numBlocks := 4 } (LRUCachePolicy.new 4) policyInv
    fun _ => rfl
  obtain ⟨_, _, stored, storedInv, _⟩ := prepare_store_ok start
    [makeOffloadKey [3] 0, makeOffloadKey [1] 0] true (by decide)
  obtain ⟨_, completed, completedInv, _⟩ := complete_store_ok storedInv
    [makeOffloadKey [3] 0, makeOffloadKey [1] 0] true
  unfold pairManager
  simp only [stored, Except.bind, completed, Except.toOption, Option.getD_some]
  exact completedInv

theorem pair_blocks_allocated : AllAllocated pairConfig pairStatus 8 pairBlocks := by
  intro group member
  have only : pairConfig.kvGroupConfigs = [⟨0, 2, 4, 2, none, false, none, false⟩] := by
    decide +kernel
  rw [only, List.mem_singleton] at member
  subst member
  refine ⟨pairBlocks.head (by decide), rfl, ?_, ?_, ?_, ?_, ?_⟩
  all_goals decide +kernel

/-- Both chunks of the request are ready in the manager. -/
theorem pair_manager_serves (keys : List OffloadKey)
    (covering : ∀ key ∈ keys, Covers pairConfig pairStatus 8 key) :
    ∃ served, OffloadingManager.prepareLoad pairManager keys = .ok served := by
  obtain ⟨blockIds, after, served, _⟩ := prepare_load_ok keys pair_manager_pool (by
    intro key member
    obtain ⟨group, known, chunkIdx, within, covered⟩ := covering key member
    have ready : ∀ group ∈ pairConfig.kvGroupConfigs, ∀ chunkIdx < cdiv 8 group.tokensPerChunk,
        ∃ key ∈ coveringKey pairConfig pairStatus group (cdiv 8 group.tokensPerChunk) chunkIdx,
          ∃ block ∈ pairManager.get key, 0 ≤ block.refCnt := by
      decide +kernel
    obtain ⟨_, same, block, found, filled⟩ := ready group known chunkIdx within
    cases covered.symm.trans same
    exact ⟨block, found, filled⟩)
  exact ⟨_, served⟩

end KvOffload.LoadTransfer
