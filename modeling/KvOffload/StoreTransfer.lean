import KvOffload.ChunkKeys
import KvOffload.LoadTransfer
import KvOffload.StoreDecoding

/-!
# Store jobs as the worker decodes them

The scheduler lists the blocks of the accepted chunks that are not null, and one block index
for each group. The worker reads the list as a run of blocks without a gap. The two agree on
where every block goes exactly when in each group the null blocks of the accepted chunks come
before the others.
-/

namespace KvOffload.StoreTransfer

open KvOffload KvOffload.Base KvOffload.SparseTables KvOffload.ConnectorConfig
open KvOffload.ConnectorRequests KvOffload.ManagerInterface KvOffload.ConnectorScheduler
open KvOffload.ConnectorStores KvOffload.ChunkKeys KvOffload.GpuTransfer
open KvOffload.GpuTransfer.SingleDirectionOffloadingHandler KvOffload.StoreDecoding
open KvOffload.LruPolicy KvOffload.CpuManager

set_option autoImplicit false

section Lists

variable {α β : Type}

/-- Items of one length, laid end to end. -/
theorem flat_map_get {size : Nat} (positive : 0 < size) (collect : α → List β) (items : List α)
    (sized : ∀ item ∈ items, (collect item).length = size) (place : Nat) :
    (items.flatMap collect)[place]? =
      items[place / size]?.bind fun item => (collect item)[place % size]? := by
  induction items generalizing place with
  | nil => rfl
  | cons item rest ih =>
      have first := sized item List.mem_cons_self
      rw [List.flatMap_cons]
      by_cases within : place < size
      · rw [List.getElem?_append_left (first ▸ within), Nat.div_eq_of_lt within,
          Nat.mod_eq_of_lt within]
        rfl
      · rw [Nat.not_lt] at within
        rw [List.getElem?_append_right (first ▸ within), first,
          ih (fun other member => sized other (List.mem_cons_of_mem _ member)),
          Nat.div_eq_sub_div positive within, Nat.mod_eq_sub_mod within, List.getElem?_cons_succ]

theorem flat_map_length {size : Nat} (collect : α → List β) (items : List α)
    (sized : ∀ item ∈ items, (collect item).length = size) :
    (items.flatMap collect).length = items.length * size := by
  rw [List.length_flatMap, List.map_congr_left sized, List.map_const', List.sum_replicate_nat]

/-- A sublist of distinct items is what membership in it selects. -/
theorem filter_mem_sublist [DecidableEq α] {chosen items : List α} (sub : chosen.Sublist items)
    (distinct : items.Nodup) : items.filter (fun item => item ∈ chosen) = chosen := by
  induction sub with
  | slnil => rfl
  | cons item sub ih =>
      rw [List.nodup_cons] at distinct
      rw [List.filter_cons_of_neg (by simpa using fun inside => distinct.1 (sub.subset inside)),
        ih distinct.2]
  | @cons_cons chosen items item sub ih =>
      rw [List.nodup_cons] at distinct
      rw [List.filter_cons_of_pos (by simp)]
      congr 1
      refine (List.filter_congr fun other member => ?_).trans (ih distinct.2)
      have apart : other ≠ item := fun same => distinct.1 (same ▸ member)
      simp [apart]

end Lists

section Groups

variable (offering : Offering) (group : GroupOffloadConfig) (keysToStore : List OffloadKey)

def acceptedChunks : List (Nat × OffloadKey × Nat) :=
  (offering.chunks group).filter fun chunk => chunk.2.1 ∈ keysToStore

/-- All blocks of the accepted chunks, null ones included. -/
def acceptedBlocks : List (Nat × Nat) :=
  (acceptedChunks offering group keysToStore).flatMap fun chunk =>
    offering.chunkBlocks group chunk.1

/-- The null blocks of the accepted chunks come before the others. -/
def NullsFirst : Prop :=
  (acceptedBlocks offering group keysToStore).Pairwise fun earlier later =>
    earlier.2 ≠ 0 → later.2 ≠ 0

variable {offering group keysToStore}

theorem chunk_blocks_length (chunkIdx : Nat) :
    (offering.chunkBlocks group chunkIdx).length = offering.config.blocksPerChunk := by
  simp [Offering.chunkBlocks]

theorem accepted_blocks_length : (acceptedBlocks offering group keysToStore).length =
    (acceptedChunks offering group keysToStore).length * offering.config.blocksPerChunk :=
  flat_map_length _ _ fun _ _ => chunk_blocks_length _

/-- Where a block of the accepted chunks comes from. -/
theorem accepted_block {place : Nat} {block : Nat × Nat}
    (found : (acceptedBlocks offering group keysToStore)[place]? = some block) :
    ∃ chunk, (acceptedChunks offering group keysToStore)[place / offering.config.blocksPerChunk]? =
        some chunk ∧
      block.1 = chunk.1 * offering.config.blocksPerChunk + place % offering.config.blocksPerChunk ∧
      block.2 = (offering.state group).blockIds.getD block.1 0 := by
  rw [acceptedBlocks, flat_map_get offering.config.blocks_pos _ _ fun _ _ =>
    chunk_blocks_length _] at found
  obtain ⟨chunk, chunkFound, found⟩ := Option.bind_eq_some_iff.mp found
  have small := Nat.mod_lt place offering.config.blocks_pos
  simp only [Offering.chunkBlocks, List.getElem?_map, List.getElem?_range small,
    Option.map_some, Option.some.injEq] at found
  subst found
  exact ⟨chunk, chunkFound, rfl, rfl⟩

/-- What a chunk of the offering says. -/
theorem chunk_spec {chunk : Nat × OffloadKey × Nat} (member : chunk ∈ offering.chunks group) :
    (offering.state group).offloadKeys[chunk.1]? = some chunk.2.1 ∧
      chunk.2.2 = (offering.state group).blockIds.getD
        (chunk.1 * offering.config.blocksPerChunk + offering.config.blocksPerChunk - 1) 0 := by
  obtain ⟨index, within, found⟩ := List.getElem_of_mem member
  have here := List.getElem?_eq_some_iff.mpr ⟨within, found⟩
  rw [Offering.chunks, List.getElem?_mapIdx] at here
  obtain ⟨key, keyFound, rfl⟩ := Option.map_eq_some_iff.mp here
  refine ⟨?_, rfl⟩
  rw [List.getElem?_drop, List.getElem?_take] at keyFound
  split at keyFound
  · exact keyFound
  · cases keyFound

theorem accepted_of_mem {chunk : Nat × OffloadKey × Nat}
    (member : chunk ∈ acceptedChunks offering group keysToStore) :
    chunk ∈ offering.chunks group ∧ chunk.2.1 ∈ keysToStore := by
  simpa [acceptedChunks] using member

/-- Every accepted chunk ends with a block that is not null. -/
def EndsLive (offering : Offering) (group : GroupOffloadConfig) (keysToStore : List OffloadKey) :
    Prop :=
  ∀ chunk ∈ acceptedChunks offering group keysToStore, chunk.2.2 ≠ 0

instance : Decidable (EndsLive offering group keysToStore) :=
  inferInstanceAs (Decidable (∀ chunk ∈ acceptedChunks offering group keysToStore, chunk.2.2 ≠ 0))

/-- The blocks that are not null, with their places among all accepted blocks. -/
def liveBlocks (offering : Offering) (group : GroupOffloadConfig) (keysToStore : List OffloadKey) :
    List ((Nat × Nat) × Nat) :=
  (acceptedBlocks offering group keysToStore).zipIdx.filter fun entry => entry.1.2 ≠ 0

theorem mem_live_blocks {entry : (Nat × Nat) × Nat} :
    entry ∈ liveBlocks offering group keysToStore ↔
      (acceptedBlocks offering group keysToStore)[entry.2]? = some entry.1 ∧ entry.1.2 ≠ 0 := by
  rw [liveBlocks, List.mem_filter, List.mem_zipIdx_iff_getElem?, decide_eq_true_eq]

/-- The source blocks are the live ones in their order. -/
theorem source_blocks_live : offering.sourceBlocks group keysToStore =
    (liveBlocks offering group keysToStore).map Prod.fst := by
  have kept : (acceptedBlocks offering group keysToStore) =
      (acceptedBlocks offering group keysToStore).zipIdx.map Prod.fst := by simp
  show (acceptedBlocks offering group keysToStore).filter _ = _
  conv_lhs => rw [kept]
  rw [List.filter_map]
  rfl

theorem live_sorted : (liveBlocks offering group keysToStore).Pairwise fun earlier later =>
    earlier.2 < later.2 := by
  apply List.Pairwise.filter
  have indices : ((acceptedBlocks offering group keysToStore).zipIdx.map Prod.snd).Pairwise
      fun earlier later => earlier < later := by
    rw [List.zipIdx_map_snd]
    exact List.pairwise_lt_range'
  exact List.pairwise_map.mp indices

/-- The last place of each accepted chunk is taken. -/
theorem chunk_end_live (ends : EndsLive offering group keysToStore) {index : Nat}
    (within : index < (acceptedChunks offering group keysToStore).length) :
    ∃ entry ∈ liveBlocks offering group keysToStore,
      entry.2 + 1 = (index + 1) * offering.config.blocksPerChunk := by
  have positive := offering.config.blocks_pos
  have chunkAt := List.getElem?_eq_getElem within
  generalize (acceptedChunks offering group keysToStore)[index] = chunk at chunkAt
  have member := List.mem_of_getElem? chunkAt
  have last := (chunk_spec (accepted_of_mem member).1).2
  have live := ends chunk member
  rw [Nat.add_sub_assoc positive] at last
  have place : (index * offering.config.blocksPerChunk + (offering.config.blocksPerChunk - 1)) /
      offering.config.blocksPerChunk = index := by
    rw [Nat.mul_comm, Nat.mul_add_div positive, Nat.div_eq_of_lt (by omega), Nat.add_zero]
  have offset : (index * offering.config.blocksPerChunk + (offering.config.blocksPerChunk - 1)) %
      offering.config.blocksPerChunk = offering.config.blocksPerChunk - 1 := by
    rw [Nat.mul_add_mod_self_right, Nat.mod_eq_of_lt (by omega)]
  refine ⟨((chunk.1 * offering.config.blocksPerChunk + (offering.config.blocksPerChunk - 1),
    chunk.2.2), index * offering.config.blocksPerChunk + (offering.config.blocksPerChunk - 1)),
    mem_live_blocks.mpr ⟨?_, live⟩, ?_⟩
  · show (acceptedBlocks offering group keysToStore)[index * offering.config.blocksPerChunk +
      (offering.config.blocksPerChunk - 1)]? = _
    rw [acceptedBlocks, flat_map_get positive _ _ fun _ _ => chunk_blocks_length _, place, offset,
      chunkAt]
    have small : offering.config.blocksPerChunk - 1 < offering.config.blocksPerChunk := by omega
    simp [Offering.chunkBlocks, small, last]
  · rw [Nat.succ_mul]
    omega

/-- The first live block lies in the first accepted chunk. -/
theorem live_head (ends : EndsLive offering group keysToStore) {entry : (Nat × Nat) × Nat}
    (head : (liveBlocks offering group keysToStore).head? = some entry) :
    entry.1.1 % offering.config.blocksPerChunk = entry.2 := by
  have positive := offering.config.blocks_pos
  have member := List.mem_of_mem_head? head
  obtain ⟨found, _⟩ := mem_live_blocks.mp member
  obtain ⟨chunk, chunkFound, logical, _⟩ := accepted_block found
  have some : 0 < (acceptedChunks offering group keysToStore).length :=
    Nat.zero_lt_of_lt (List.getElem?_eq_some_iff.mp chunkFound).1
  obtain ⟨last, lastMember, lastPlace⟩ := chunk_end_live ends some
  have first : entry.2 ≤ last.2 := by
    obtain ⟨rest, split⟩ := List.head?_eq_some_iff.mp head
    have sorted := @live_sorted offering group keysToStore
    rw [split, List.pairwise_cons] at sorted
    rw [split] at lastMember
    rcases List.mem_cons.mp lastMember with rfl | later
    · exact le_rfl
    · exact (sorted.1 last later).le
  rw [logical, Nat.mul_add_mod_self_right, Nat.mod_mod, Nat.mod_eq_of_lt (by omega)]

end Groups

section Placements

variable (offering : Offering) (output : PrepareStoreOutput) (group : GroupOffloadConfig)

/-- The CPU block that the manager assigned to a chunk. -/
def assignedBlock (chunkIdx : Nat) : Option Nat :=
  (offering.state group).offloadKeys[chunkIdx]?.bind fun key =>
    assocGet (output.keysToStore.zip output.storeSpec) key

/-- Block `i` of the group goes to sub-block `i % blocksPerChunk` of the CPU block of its
chunk. -/
def chunkCopies : List Copy :=
  (offering.sourceBlocks group output.keysToStore).map fun block =>
    ((block.2, 0),
      ((assignedBlock offering output group (block.1 / offering.config.blocksPerChunk)).getD 0,
        block.1 % offering.config.blocksPerChunk))

/-- The first source block of the group says where its run starts. -/
def firstIndex : Nat :=
  ((offering.sourceBlocks group output.keysToStore).head?.map Prod.fst).getD 0

def placementOf : Placement offering.config.blocksPerChunk :=
  if ends : EndsLive offering group output.keysToStore then
    { blocks := (liveBlocks offering group output.keysToStore).map fun entry =>
        (entry.1.2, entry.2)
      cpuBlocks := (acceptedChunks offering group output.keysToStore).map fun chunk =>
        (assignedBlock offering output group chunk.1).getD 0
      blockIndex := firstIndex offering output group
      sorted := List.pairwise_map.mpr live_sorted
      bounded := by
        intro block member
        obtain ⟨entry, entryMember, rfl⟩ := List.mem_map.mp member
        have found := (mem_live_blocks.mp entryMember).1
        rw [List.length_map, ← accepted_blocks_length]
        exact (List.getElem?_eq_some_iff.mp found).1
      full := by
        intro some
        rw [ne_eq, List.map_eq_nil_iff, ← ne_eq, ← List.length_pos_iff] at some
        obtain ⟨entry, member, last⟩ := chunk_end_live ends (Nat.sub_one_lt some.ne')
        refine ⟨_, List.mem_map_of_mem member, ?_⟩
        rw [List.length_map, last, Nat.sub_add_cancel some]
      first := by
        intro block isHead
        rw [List.head?_map, Option.mem_def] at isHead
        obtain ⟨entry, head, rfl⟩ := Option.map_eq_some_iff.mp isHead
        rw [firstIndex, source_blocks_live, List.head?_map, head]
        exact live_head ends head }
  else .empty _

variable {offering output group}

theorem placement_blocks (ends : EndsLive offering group output.keysToStore) :
    (placementOf offering output group).blocks =
      (liveBlocks offering group output.keysToStore).map fun entry => (entry.1.2, entry.2) := by
  rw [placementOf, dif_pos ends]

theorem placement_cpu_blocks (ends : EndsLive offering group output.keysToStore) :
    (placementOf offering output group).cpuBlocks =
      (acceptedChunks offering group output.keysToStore).map fun chunk =>
        (assignedBlock offering output group chunk.1).getD 0 := by
  rw [placementOf, dif_pos ends]

theorem placement_index (ends : EndsLive offering group output.keysToStore) :
    (placementOf offering output group).blockIndex = firstIndex offering output group := by
  rw [placementOf, dif_pos ends]

/-- The places are where the chunks say. -/
theorem right_copies_chunks (ends : EndsLive offering group output.keysToStore) :
    (placementOf offering output group).rightCopies = chunkCopies offering output group := by
  rw [Placement.rightCopies, placement_blocks ends, placement_cpu_blocks ends, chunkCopies,
    source_blocks_live, List.map_map, List.map_map]
  apply List.map_congr_left
  intro entry member
  obtain ⟨found, _⟩ := mem_live_blocks.mp member
  obtain ⟨chunk, chunkFound, logical, _⟩ := accepted_block found
  have positive := offering.config.blocks_pos
  have small := Nat.mod_lt entry.2 positive
  have chunkIdx : entry.1.1 / offering.config.blocksPerChunk = chunk.1 := by
    rw [logical, Nat.mul_comm, Nat.mul_add_div positive, Nat.div_eq_of_lt small, Nat.add_zero]
  have offset : entry.1.1 % offering.config.blocksPerChunk =
      entry.2 % offering.config.blocksPerChunk := by
    rw [logical, Nat.mul_add_mod_self_right, Nat.mod_mod]
  simp [slot, chunkFound, chunkIdx, offset]

theorem mem_places (ends : EndsLive offering group output.keysToStore) {place : Nat} :
    place ∈ (placementOf offering output group).blocks.map Prod.snd ↔
      ∃ block, (acceptedBlocks offering group output.keysToStore)[place]? = some block ∧
        block.2 ≠ 0 := by
  rw [placement_blocks ends, List.map_map, List.mem_map]
  constructor
  · rintro ⟨entry, member, rfl⟩
    exact ⟨entry.1, mem_live_blocks.mp member⟩
  · rintro ⟨block, live⟩
    exact ⟨(block, place), mem_live_blocks.mpr live, rfl⟩

/-- Without a gap means that no null block comes after another one. -/
theorem gapless_iff (ends : EndsLive offering group output.keysToStore) :
    (placementOf offering output group).Gapless ↔
      NullsFirst offering group output.keysToStore := by
  have total : (placementOf offering output group).cpuBlocks.length *
      offering.config.blocksPerChunk =
        (acceptedBlocks offering group output.keysToStore).length := by
    rw [placement_cpu_blocks ends, List.length_map, accepted_blocks_length]
  have sorted := List.pairwise_map.mpr (placementOf offering output group).sorted
  have head := (placementOf offering output group).first
  have gaplessEnd := @Placement.gapless_end _ (placementOf offering output group)
  rw [total] at gaplessEnd
  have places := @mem_places offering output group ends
  rw [NullsFirst, List.pairwise_iff_getElem, Placement.Gapless]
  generalize (acceptedBlocks offering group output.keysToStore) = blocks at *
  constructor
  · intro gapless earlier later earlierInside laterInside before live
    have nonempty : (placementOf offering output group).cpuBlocks ≠ [] := by
      intro none
      rw [none, List.length_nil, Nat.zero_mul] at total
      omega
    have stop := gaplessEnd gapless nonempty
    rw [gapless] at places
    have taken := places.mpr ⟨_, List.getElem?_eq_getElem earlierInside, live⟩
    rw [List.mem_range'_1] at taken
    obtain ⟨block, found, live⟩ := places.mp (List.mem_range'_1.mpr
      (show _ ≤ later ∧ later < _ by omega))
    obtain ⟨_, rfl⟩ := List.getElem?_eq_some_iff.mp found
    exact live
  · intro nullsFirst
    cases live : (placementOf offering output group).blocks with
    | nil => simp
    | cons first rest =>
        have start_is := head first (by rw [live]; rfl)
        rw [live] at sorted places
        have firstPlace := places.mp (List.mem_map_of_mem List.mem_cons_self)
        rw [← start_is] at firstPlace
        generalize (placementOf offering output group).blockIndex %
          offering.config.blocksPerChunk = start at *
        obtain ⟨firstBlock, firstFound, firstLive⟩ := firstPlace
        obtain ⟨startInside, rfl⟩ := List.getElem?_eq_some_iff.mp firstFound
        have run : (first :: rest).map Prod.snd =
            List.range' start (blocks.length - start) := by
          apply sorted.eq_of_mem_iff List.pairwise_lt_range'
          intro place
          rw [List.mem_range'_1]
          constructor
          · intro member
            obtain ⟨block, found, _⟩ := places.mp member
            have inside := (List.getElem?_eq_some_iff.mp found).1
            have behind : start ≤ place := by
              rw [List.map_cons, List.pairwise_cons] at sorted
              rw [List.map_cons] at member
              rcases List.mem_cons.mp member with rfl | later
              · exact start_is.le
              · exact start_is.le.trans (sorted.1 place later).le
            omega
          · rintro ⟨behind, inside⟩
            have placeInside : place < blocks.length := by omega
            refine places.mpr ⟨_, List.getElem?_eq_getElem placeInside, ?_⟩
            rcases behind.eq_or_lt with rfl | later
            · exact firstLive
            · exact nullsFirst start place startInside placeInside later firstLive
        have size := congrArg List.length run
        rw [List.length_map, List.length_range'] at size
        rw [run, size]

end Placements

section Specs

variable (offering : Offering) (output : PrepareStoreOutput)

def groupsByIndex (config : SchedulerOffloadConfig) : List (Nat × GroupOffloadConfig) :=
  config.kvGroupConfigs.map fun group => (group.groupIdx, group)

/-- What each group index stores; most often nothing. -/
def placements (groupIdx : Nat) : Placement offering.config.blocksPerChunk :=
  (assocGet (groupsByIndex offering.config) groupIdx).elim (.empty _)
    (placementOf offering output)

theorem groups_by_index_fst (config : SchedulerOffloadConfig) :
    (groupsByIndex config).map Prod.fst =
      config.kvGroupConfigs.map GroupOffloadConfig.groupIdx := by
  rw [groupsByIndex, List.map_map]
  rfl

theorem groups_by_index_sorted (config : SchedulerOffloadConfig) :
    ((groupsByIndex config).map Prod.fst).Pairwise fun first second => first < second := by
  rw [groups_by_index_fst]
  exact List.pairwise_map.mpr config.ordered

variable {offering output}

theorem placements_of_mem {group : GroupOffloadConfig}
    (member : group ∈ offering.config.kvGroupConfigs) :
    placements offering output group.groupIdx = placementOf offering output group := by
  have entry : (group.groupIdx, group) ∈ groupsByIndex offering.config :=
    List.mem_map_of_mem member
  rw [placements, assoc_get_of_mem ((groups_by_index_sorted _).imp fun less => less.ne) entry]
  rfl

/-- A group index stores nothing, or what its group does. -/
theorem placements_cases (groupIdx : Nat) :
    placements offering output groupIdx = .empty _ ∨
      ∃ group ∈ offering.config.kvGroupConfigs, group.groupIdx = groupIdx ∧
        placements offering output groupIdx = placementOf offering output group := by
  cases found : assocGet (groupsByIndex offering.config) groupIdx with
  | none =>
      left
      rw [placements, found]
      rfl
  | some group =>
      obtain ⟨_, member, same⟩ := List.mem_map.mp (assoc_get_mem found)
      cases same
      exact .inr ⟨group, member, rfl, placements_of_mem member⟩

/-- A walk over all group indices meets the offloaded groups. -/
theorem walk_groups {β : Type}
    (collect : Nat → Placement offering.config.blocksPerChunk → List β)
    (empty : ∀ groupIdx, collect groupIdx (.empty _) = []) :
    ((List.range offering.config.numKvCacheGroups).flatMap fun groupIdx =>
        collect groupIdx (placements offering output groupIdx)) =
      offering.config.kvGroupConfigs.flatMap fun group =>
        collect group.groupIdx (placementOf offering output group) := by
  have bounded : ∀ entry ∈ groupsByIndex offering.config,
      entry.1 < offering.config.numKvCacheGroups := by
    intro entry member
    obtain ⟨group, groupMember, rfl⟩ := List.mem_map.mp member
    exact offering.config.bounded group groupMember
  refine (walk_entries (fun groupIdx group => collect groupIdx (group.elim (.empty _)
    (placementOf offering output))) (groups_by_index_sorted _) bounded empty).trans ?_
  rw [groupsByIndex, List.flatMap_map]
  rfl

/-- A table that is written for each offloaded group. -/
theorem group_table {β : Type} (value : GroupOffloadConfig → β) (default : β) :
    offering.config.kvGroupConfigs.foldl (fun table group =>
        table.set group.groupIdx (value group))
        (List.replicate offering.config.numKvCacheGroups default) =
      (List.range offering.config.numKvCacheGroups).map fun groupIdx =>
        ((assocGet (groupsByIndex offering.config) groupIdx).map value).getD default := by
  rw [← fill_replicate value default _ ((groups_by_index_sorted _).imp fun less => less.ne), fill,
    groupsByIndex, List.foldl_map]

/-- The entry of a table is what the placement says. -/
theorem table_entry {β : Type} (value : GroupOffloadConfig → β) {default : β}
    (read : Placement offering.config.blocksPerChunk → β)
    (same : ∀ group ∈ offering.config.kvGroupConfigs,
      read (placementOf offering output group) = value group)
    (none : read (.empty _) = default) (groupIdx : Nat) :
    ((assocGet (groupsByIndex offering.config) groupIdx).map value).getD default =
      read (placements offering output groupIdx) := by
  rw [placements]
  cases found : assocGet (groupsByIndex offering.config) groupIdx with
  | none => exact none.symm
  | some group =>
      obtain ⟨_, member, entry⟩ := List.mem_map.mp (assoc_get_mem found)
      cases entry
      exact (same group member).symm

/-- The spec of a store and what it says of each group. -/
theorem store_spec_placements
    (ends : ∀ group ∈ offering.config.kvGroupConfigs,
      EndsLive offering group output.keysToStore) :
    ∃ gpuSpec, offering.storeSpec output.keysToStore = .ok gpuSpec ∧
      gpuSpec.groupSizes = ((List.range offering.config.numKvCacheGroups).map fun groupIdx =>
        (placements offering output groupIdx).blocks.length) ∧
      gpuSpec.blockIndices = ((List.range offering.config.numKvCacheGroups).map fun groupIdx =>
        (placements offering output groupIdx).blockIndex) ∧
      gpuSpec.blockIds = (List.range offering.config.numKvCacheGroups).flatMap fun groupIdx =>
        (placements offering output groupIdx).blocks.map Prod.fst := by
  have sizes : offering.config.kvGroupConfigs.foldl (fun sizes group =>
        sizes.set group.groupIdx (offering.sourceBlocks group output.keysToStore).length)
        (List.replicate offering.config.numKvCacheGroups 0) =
      (List.range offering.config.numKvCacheGroups).map fun groupIdx =>
        (placements offering output groupIdx).blocks.length := by
    refine (group_table _ 0).trans (List.map_congr_left fun groupIdx _ =>
      table_entry _ (fun placement => placement.blocks.length) (fun group member => ?_) rfl
        groupIdx)
    rw [placement_blocks (ends group member), source_blocks_live, List.length_map,
      List.length_map]
  have indices : offering.config.kvGroupConfigs.foldl (fun indices group =>
        indices.set group.groupIdx
          (((offering.sourceBlocks group output.keysToStore).head?.map Prod.fst).getD 0))
        (List.replicate offering.config.numKvCacheGroups 0) =
      (List.range offering.config.numKvCacheGroups).map fun groupIdx =>
        (placements offering output groupIdx).blockIndex := by
    refine (group_table _ 0).trans (List.map_congr_left fun groupIdx _ =>
      table_entry _ Placement.blockIndex (fun group member => ?_) rfl groupIdx)
    exact placement_index (ends group member)
  have blockIds : offering.sourceIds output.keysToStore (fun _ => true) =
      (List.range offering.config.numKvCacheGroups).flatMap fun groupIdx =>
        (placements offering output groupIdx).blocks.map Prod.fst := by
    rw [walk_groups (fun _ placement => placement.blocks.map Prod.fst) fun _ => rfl,
      Offering.sourceIds, List.filter_true]
    apply List.flatMap_congr
    intro group member
    rw [placement_blocks (ends group member), source_blocks_live, List.map_map, List.map_map]
    rfl
  unfold Offering.storeSpec
  dsimp only
  rw [sizes, indices, blockIds]
  exact ⟨_, gpu_spec_make_ok (by simp [List.length_flatMap]) (by simp), rfl, rfl, rfl⟩

end Specs

section Offers

variable {M : Type} [OffloadingManager M] {offering : Offering}

/-- The keys of the chunks of a group that end with a block that is not null. -/
def liveKeys (offering : Offering) (group : GroupOffloadConfig) : List OffloadKey :=
  ((offering.chunks group).filter fun chunk => chunk.2.2 ≠ 0).map fun chunk => chunk.2.1

theorem offer_chunks_adds_live {group : GroupOffloadConfig}
    (chunks : List (Nat × OffloadKey × Nat)) {offers last : Offers M}
    (offered : offering.offerChunks group offers chunks = .ok last) :
    Adds ((chunks.filter fun chunk => chunk.2.2 ≠ 0).map fun chunk => chunk.2.1) offers.keys
      last.keys := by
  induction chunks generalizing offers with
  | nil =>
      cases offered
      exact adds_nothing _ _
  | cons chunk rest ih =>
      obtain ⟨middle, first, offered⟩ := bind_eq_ok.mp offered
      by_cases null : chunk.2.2 = 0
      · rw [Offering.offerChunk, if_pos null] at first
        cases first
        simpa [null] using ih offered
      · simpa [null] using adds_trans (offer_chunk_adds_own first) (ih offered)

theorem offer_groups_adds_live (groups : List GroupOffloadConfig) {offers last : Offers M}
    (offered : offering.offerGroups offers groups = .ok last) :
    Adds (groups.flatMap (liveKeys offering)) offers.keys last.keys := by
  induction groups generalizing offers with
  | nil =>
      cases offered
      exact adds_nothing _ _
  | cons group rest ih =>
      obtain ⟨middle, first, offered⟩ := bind_eq_ok.mp offered
      rw [List.flatMap_cons]
      apply adds_trans _ (ih offered)
      unfold Offering.offerGroup at first
      split at first
      · cases first
        exact adds_nothing _ _
      · obtain ⟨_, _, first⟩ := bind_eq_ok.mp first
        exact offer_chunks_adds_live _ first

/-- The group and the chunk of a key. -/
theorem same_chunk
    (distinct : (offering.config.kvGroupConfigs.flatMap (offerable offering)).Nodup)
    {group other : GroupOffloadConfig} (member : group ∈ offering.config.kvGroupConfigs)
    (otherMember : other ∈ offering.config.kvGroupConfigs)
    {chunk otherChunk : Nat × OffloadKey × Nat} (isChunk : chunk ∈ offering.chunks group)
    (isOther : otherChunk ∈ offering.chunks other) (same : chunk.2.1 = otherChunk.2.1) :
    chunk = otherChunk := by
  rw [List.nodup_flatMap] at distinct
  have inGroup : chunk.2.1 ∈ offerable offering group := List.mem_map_of_mem isChunk
  have inOther : chunk.2.1 ∈ offerable offering other := same ▸ List.mem_map_of_mem isOther
  by_cases apart : group = other
  · subst apart
    exact List.inj_on_of_nodup_map (distinct.1 group member) isChunk isOther same
  · have symmetric : Std.Symm (Function.onFun List.Disjoint (offerable offering)) :=
      ⟨fun _ _ disjoint => disjoint.symm⟩
    exact absurd inOther (distinct.2.forall member otherMember apart inGroup)

variable {keysToStore : List OffloadKey} {manager : M} {count : Nat} {offers : Offers M}

theorem accepted_ends_live
    (distinct : (offering.config.kvGroupConfigs.flatMap (offerable offering)).Nodup)
    (offered : offering.offerGroups ⟨manager, count, []⟩ offering.config.kvGroupConfigs =
      .ok offers)
    (accepted : keysToStore.Sublist offers.keys) :
    ∀ group ∈ offering.config.kvGroupConfigs, EndsLive offering group keysToStore := by
  obtain ⟨added, same, sub⟩ := offer_groups_adds_live _ offered
  rw [List.nil_append] at same
  intro group member chunk inChunks
  obtain ⟨isChunk, isAccepted⟩ := accepted_of_mem inChunks
  obtain ⟨other, otherMember, inLive⟩ :=
    List.mem_flatMap.mp (sub.subset (same ▸ accepted.subset isAccepted))
  obtain ⟨otherChunk, otherLive, sameKey⟩ := List.mem_map.mp inLive
  rw [List.mem_filter, decide_eq_true_eq] at otherLive
  rw [same_chunk distinct member otherMember isChunk otherLive.1 sameKey.symm]
  exact otherLive.2

/-- The accepted keys are those of the accepted chunks, group by group. -/
theorem accepted_keys
    (distinct : (offering.config.kvGroupConfigs.flatMap (offerable offering)).Nodup)
    (offered : offering.offerGroups ⟨manager, count, []⟩ offering.config.kvGroupConfigs =
      .ok offers)
    (accepted : keysToStore.Sublist offers.keys) :
    (offering.config.kvGroupConfigs.flatMap fun group =>
      (acceptedChunks offering group keysToStore).map fun chunk => chunk.2.1) = keysToStore := by
  obtain ⟨added, same, sub⟩ := offer_groups_adds_own _ offered
  rw [List.nil_append] at same
  have selected := filter_mem_sublist (accepted.trans (same ▸ sub)) distinct
  rw [List.filter_flatMap] at selected
  refine Eq.trans (List.flatMap_congr fun group _ => ?_) selected
  rw [offerable, List.filter_map]
  rfl

theorem zip_lookup {keys : List OffloadKey} {blockIds : List Nat} (distinct : keys.Nodup)
    (sized : blockIds.length = keys.length) :
    keys.map (fun key => (assocGet (keys.zip blockIds) key).getD 0) = blockIds := by
  apply List.ext_getElem
  · rw [List.length_map, sized]
  · intro index inKeys inBlocks
    have within : index < keys.length := by simpa using inKeys
    have fst : (keys.zip blockIds).map Prod.fst = keys := List.map_fst_zip sized.ge
    have entry : (keys[index], blockIds[index]) ∈ keys.zip blockIds := by
      have inZip : index < (keys.zip blockIds).length := by simp [within, inBlocks]
      exact List.getElem_zip ▸ List.getElem_mem inZip
    rw [List.getElem_map, assoc_get_of_mem (fst.symm ▸ distinct) entry, Option.getD_some]

end Offers

section Jobs

variable {M : Type} [OffloadingManager M] {offering : Offering} {output : PrepareStoreOutput}
  {manager : M} {count : Nat} {offers : Offers M}

/-- The descriptors where every source block goes to its place in its chunk. -/
def storeOps (offering : Offering) (output : PrepareStoreOutput)
    (handler : SingleDirectionOffloadingHandler) : List CopyOp :=
  offering.config.kvGroupConfigs.flatMap fun group =>
    (handler.layerRefsPerGroup.getD group.groupIdx []).flatMap
      (handler.layerOps (chunkCopies offering output group))

/-- Scheduler and worker agree on a store, whatever the layers of the worker: the spec is
made, no assertion of `transfer_async` fails, and every source block goes to its place in the
CPU block of its chunk. -/
def StoreAgrees (offering : Offering) (output : PrepareStoreOutput) : Prop :=
  ∃ gpuSpec, offering.storeSpec output.keysToStore = .ok gpuSpec ∧ ∀ handler,
    Stores handler offering.config.blocksPerChunk offering.config.numKvCacheGroups →
      handler.transferAsync gpuSpec output.storeSpec = .ok (storeOps offering output handler)

/-- Whatever the manager accepts of the offered keys, scheduler and worker agree on the store
if and only if in each group the null blocks of the accepted chunks come before the others. -/
theorem stores_agree_iff
    (offered : offering.offerGroups ⟨manager, count, []⟩ offering.config.kvGroupConfigs =
      .ok offers)
    (distinct : (offering.config.kvGroupConfigs.flatMap (offerable offering)).Nodup)
    (accepted : output.keysToStore.Sublist offers.keys)
    (sized : output.storeSpec.length = output.keysToStore.length)
    (apart : output.storeSpec.Nodup) :
    StoreAgrees offering output ↔ ∀ group ∈ offering.config.kvGroupConfigs,
      NullsFirst offering group output.keysToStore := by
  have ends := accepted_ends_live distinct offered accepted
  have keys := accepted_keys distinct offered accepted
  obtain ⟨gpuSpec, made, sizes, indices, src⟩ := store_spec_placements ends
  have keysDistinct : output.keysToStore.Nodup := by
    obtain ⟨added, same, sub⟩ := offer_groups_adds_own _ offered
    rw [List.nil_append] at same
    exact distinct.sublist (accepted.trans (same ▸ sub))
  have dst : output.storeSpec =
      (List.range offering.config.numKvCacheGroups).flatMap fun groupIdx =>
        (placements offering output groupIdx).cpuBlocks := by
    rw [walk_groups (fun _ placement => placement.cpuBlocks) fun _ => rfl,
      ← zip_lookup keysDistinct sized]
    conv_lhs => arg 2; rw [← keys]
    rw [List.map_flatMap]
    apply List.flatMap_congr
    intro group member
    rw [placement_cpu_blocks (ends group member), List.map_map]
    apply List.map_congr_left
    intro chunk inChunks
    have key := (chunk_spec (accepted_of_mem inChunks).1).1
    simp [assignedBlock, key]
  have ops : ∀ handler : SingleDirectionOffloadingHandler,
      ((List.range offering.config.numKvCacheGroups).flatMap fun groupIdx =>
        (placements offering output groupIdx).rightOps handler groupIdx) =
          storeOps offering output handler := by
    intro handler
    rw [walk_groups (fun groupIdx placement => placement.rightOps handler groupIdx)
      fun groupIdx => Placement.empty_ops, storeOps]
    apply List.flatMap_congr
    intro group member
    rw [Placement.rightOps, right_copies_chunks (ends group member)]
  have decodes := decodes_iff offering.config.blocks_pos apart sizes indices src dst
  simp only [ops] at decodes
  have agrees : StoreAgrees offering output ↔ ∀ handler,
      Stores handler offering.config.blocksPerChunk offering.config.numKvCacheGroups →
        handler.transferAsync gpuSpec output.storeSpec =
          .ok (storeOps offering output handler) := by
    constructor
    · rintro ⟨other, otherMade, agrees⟩
      cases made.symm.trans otherMade
      exact agrees
    · exact fun agrees => ⟨gpuSpec, made, agrees⟩
  rw [agrees, decodes]
  constructor
  · intro gapless group member
    have own := gapless group.groupIdx (offering.config.bounded group member)
    rw [placements_of_mem member] at own
    exact (gapless_iff (ends group member)).mp own
  · intro nullsFirst groupIdx _
    rcases placements_cases groupIdx with none | ⟨group, member, rfl, same⟩
    · rw [none]
      rfl
    · rw [same]
      exact (gapless_iff (ends group member)).mpr (nullsFirst group member)

end Jobs

section Sample

def windowGroups : List OffloadingGroupConfig := [⟨2, 0⟩, ⟨2, 1⟩]

theorem window_blocks_pos : 0 < 3 := Nat.zero_lt_succ 2

/-- A full-attention group and a window group with three blocks a chunk. -/
def windowSpec : OffloadingSpec where
  groups := windowGroups
  kvCacheGroups := [⟨.fullAttention, false⟩, ⟨.slidingWindow 2 Nat.two_pos, false⟩]
  blocksPerChunk := 3
  tokensPerHash := 2
  worldSize := 1
  decodeContextParallelSize := 1
  offloadPromptOnly := false
  useEagle := false
  ordered := by decide
  bounded := by decide
  blocks_pos := window_blocks_pos
  hash_pos := Nat.two_pos
  hash_fits := by decide

def windowConfig : SchedulerOffloadConfig := .fromSpec windowSpec

/-- What a request offers whose recorded blocks were handed out again in part. -/
def windowOffering (blockHashes : List BlockHash) (blockIds : List (List Nat))
    (allocated : Finset Nat) : Offering where
  config := windowConfig
  settings := {}
  status :=
    let numTokens := blockHashes.length * 2
    let req : Request := ⟨0, numTokens, numTokens, 0, blockHashes, .unfinished, false, .all, none⟩
    let status := (RequestOffloadState.new req (createReqContext req) .blockLevel).updateOffloadKeys
      windowConfig
    zeroStaleOf windowConfig allocated none
      ((status.updateBlockIdGroups windowConfig blockIds).toOption.getD status)
  numOffloadableTokens := blockHashes.length * 2

/-- What a manager of four free blocks answers to the offered keys. -/
def windowStore (offering : Offering) :
    Except PyError (List OffloadKey × Option PrepareStoreOutput) := do
  let manager := CPUOffloadingManager.new { numBlocks := 4 } (LRUCachePolicy.new 4)
  let offers ← offering.offerGroups ⟨manager, 0, []⟩ offering.config.kvGroupConfigs
  let (output, _) ← offers.manager.prepareStore offers.keys true
  .ok (offers.keys, output)

/-- Two chunks of each group; two blocks of the first chunk of the window group are null. -/
def packedOffering : Offering :=
  windowOffering [[0], [1], [2], [3], [4], [5]] [[5, 2, 7, 8, 9, 10], [0, 6, 4, 11, 12, 13]] {6}

theorem packed_store_agrees : ∃ output : PrepareStoreOutput,
    windowStore packedOffering = .ok (output.keysToStore, some output) ∧
    output.keysToStore = [⟨[2], 0⟩, ⟨[5], 0⟩, ⟨[2], 1⟩, ⟨[5], 1⟩] ∧
    StoreAgrees packedOffering output := by
  have ran : windowStore packedOffering = .ok ([⟨[2], 0⟩, ⟨[5], 0⟩, ⟨[2], 1⟩, ⟨[5], 1⟩],
      some ⟨[⟨[2], 0⟩, ⟨[5], 0⟩, ⟨[2], 1⟩, ⟨[5], 1⟩], [0, 1, 2, 3], []⟩) := by
    decide +kernel
  refine ⟨⟨[⟨[2], 0⟩, ⟨[5], 0⟩, ⟨[2], 1⟩, ⟨[5], 1⟩], [0, 1, 2, 3], []⟩, ran, rfl, ?_⟩
  obtain ⟨offers, offered, stored⟩ := bind_eq_ok.mp ran
  obtain ⟨⟨output, _⟩, _, done⟩ := bind_eq_ok.mp stored
  simp only [Except.ok.injEq, Prod.mk.injEq] at done
  refine (stores_agree_iff offered (by decide +kernel) (by rw [done.1]) rfl (by decide)).mpr ?_
  unfold NullsFirst
  decide +kernel

/-- Block 6 lies inside the chunk of the window group. -/
def hopackedOffering : Offering := windowOffering [[0], [1], [2]] [[5, 2, 7], [3, 6, 4]] {6}

/-- The worker puts the block after the null block into the place of the null block. -/
theorem hole_misplaces_block :
    ∃ (output : PrepareStoreOutput) (gpuSpec : GPULoadStoreSpec),
      windowStore hopackedOffering = .ok (output.keysToStore, some output) ∧
      hopackedOffering.storeSpec output.keysToStore = .ok gpuSpec ∧
      Stores (plainHandler 3 window_blocks_pos 2) 3 2 ∧
      (plainHandler 3 window_blocks_pos 2).transferAsync gpuSpec output.storeSpec =
        .ok [⟨5, 0, 1⟩, ⟨2, 1, 1⟩, ⟨7, 2, 1⟩, ⟨3, 3, 1⟩, ⟨4, 4, 1⟩] ∧
      storeOps hopackedOffering output (plainHandler 3 window_blocks_pos 2) =
        [⟨5, 0, 1⟩, ⟨2, 1, 1⟩, ⟨7, 2, 1⟩, ⟨3, 3, 1⟩, ⟨4, 5, 1⟩] ∧
      ¬StoreAgrees hopackedOffering output := by
  have ran : windowStore hopackedOffering =
      .ok ([⟨[2], 0⟩, ⟨[2], 1⟩], some ⟨[⟨[2], 0⟩, ⟨[2], 1⟩], [0, 1], []⟩) := by
    decide +kernel
  have made : hopackedOffering.storeSpec [⟨[2], 0⟩, ⟨[2], 1⟩] =
      .ok ⟨[5, 2, 7, 3, 4], [3, 2], [0, 0], rfl, rfl⟩ := by
    decide +kernel
  have stores : Stores (plainHandler 3 window_blocks_pos 2) 3 2 := ⟨rfl, rfl, rfl⟩
  have decoded : (plainHandler 3 window_blocks_pos 2).transferAsync
      ⟨[5, 2, 7, 3, 4], [3, 2], [0, 0], rfl, rfl⟩ [0, 1] =
        .ok [⟨5, 0, 1⟩, ⟨2, 1, 1⟩, ⟨7, 2, 1⟩, ⟨3, 3, 1⟩, ⟨4, 4, 1⟩] := by
    decide +kernel
  have right : storeOps hopackedOffering ⟨[⟨[2], 0⟩, ⟨[2], 1⟩], [0, 1], []⟩
      (plainHandler 3 window_blocks_pos 2) =
        [⟨5, 0, 1⟩, ⟨2, 1, 1⟩, ⟨7, 2, 1⟩, ⟨3, 3, 1⟩, ⟨4, 5, 1⟩] := by
    decide +kernel
  refine ⟨⟨[⟨[2], 0⟩, ⟨[2], 1⟩], [0, 1], []⟩, _, ran, made, stores, decoded, right, ?_⟩
  rintro ⟨other, otherMade, agrees⟩
  cases made.symm.trans otherMade
  have wrong := Except.ok.inj ((decoded.symm.trans (agrees _ stores)).trans
    (congrArg Except.ok right))
  revert wrong
  decide

end Sample

end KvOffload.StoreTransfer
