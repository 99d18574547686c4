import KvOffload.GpuTransfer
import KvOffload.SparseTables
import Mathlib.Data.List.GetD

/-!
# Decoding of store transfers

A store names, group by group, the GPU blocks that it reads and where the first of them lies
in its chunk. The worker places the blocks of a group one after the other into the CPU blocks
of the group. Each block lands at its own place exactly when the places have no gap.
-/

namespace KvOffload.StoreDecoding

open KvOffload KvOffload.Base KvOffload.SparseTables KvOffload.GpuTransfer
open KvOffload.GpuTransfer.SingleDirectionOffloadingHandler

set_option autoImplicit false

/-- The blocks that a group stores, each with its place among the sub-blocks of the CPU
blocks. The last place is taken, and the block index says which place is the first. -/
structure Placement (blocksPerChunk : Nat) where
  blocks : List (Nat × Nat)
  cpuBlocks : List Nat
  blockIndex : Nat
  sorted : blocks.Pairwise fun earlier later => earlier.2 < later.2
  bounded : ∀ block ∈ blocks, block.2 < cpuBlocks.length * blocksPerChunk
  full : cpuBlocks ≠ [] → ∃ block ∈ blocks, block.2 + 1 = cpuBlocks.length * blocksPerChunk
  first : ∀ block ∈ blocks.head?, blockIndex % blocksPerChunk = block.2

namespace Placement

variable {blocksPerChunk : Nat} (placement : Placement blocksPerChunk)

/-- A group that stores nothing. -/
def empty (blocksPerChunk : Nat) : Placement blocksPerChunk :=
  ⟨[], [], 0, .nil, by simp, fun some => absurd rfl some, by simp⟩

/-- The places from the first one on are all taken. -/
def Gapless : Prop :=
  placement.blocks.map Prod.snd =
    List.range' (placement.blockIndex % blocksPerChunk) placement.blocks.length

/-- Every block goes to its own place. -/
def rightCopies : List Copy :=
  placement.blocks.map fun block => ((block.1, 0), slot blocksPerChunk placement.cpuBlocks block.2)

/-- What the group contributes to the transfer. -/
def part (handler : SingleDirectionOffloadingHandler) (groupIdx : Nat) : GroupPart where
  entry :=
    { groupSize := placement.blocks.length
      blockIndex := placement.blockIndex
      refs := handler.layerRefsPerGroup.getD groupIdx [] }
  src := placement.blocks.map Prod.fst
  dst := placement.cpuBlocks

/-- The descriptors of the group where every block goes to its own place. -/
def rightOps (handler : SingleDirectionOffloadingHandler) (groupIdx : Nat) : List CopyOp :=
  (handler.layerRefsPerGroup.getD groupIdx []).flatMap (handler.layerOps placement.rightCopies)

variable {placement} {handler : SingleDirectionOffloadingHandler}

theorem empty_ops {groupIdx : Nat} : (empty blocksPerChunk).rightOps handler groupIdx = [] := by
  simp [rightOps, rightCopies, empty, layerOps]

theorem src_blocks_on_store (onStore : handler.gpuToCpu = true) :
    handler.srcBlocksPerChunk = 1 := by
  simp [srcBlocksPerChunk, onStore]

theorem dst_blocks_on_store (onStore : handler.gpuToCpu = true) :
    handler.dstBlocksPerChunk = handler.blocksPerChunk := by
  simp [dstBlocksPerChunk, onStore]

/-- The worker counts on from the first place. -/
theorem counted_copies (onStore : handler.gpuToCpu = true)
    (chunks : handler.blocksPerChunk = blocksPerChunk) {cpuBlocks : List Nat} :
    handler.copies
        { src := placement.blocks.map Prod.fst
          dst := cpuBlocks
          groupSize := placement.blocks.length
          srcSkipCount := placement.blockIndex % handler.srcBlocksPerChunk
          dstSkipCount := placement.blockIndex % handler.dstBlocksPerChunk } =
      placement.blocks.mapIdx fun index block =>
        ((block.1, 0),
          slot blocksPerChunk cpuBlocks (placement.blockIndex % blocksPerChunk + index)) := by
  apply List.ext_getElem
  · simp [copies]
  · intro index inCopies inBlocks
    have within : index < placement.blocks.length := by simpa [copies] using inCopies
    simp [copies, src_blocks_on_store onStore, dst_blocks_on_store onStore, chunks, slot, within,
      Nat.mod_one]

theorem gapless_copies (onStore : handler.gpuToCpu = true)
    (chunks : handler.blocksPerChunk = blocksPerChunk) (gapless : placement.Gapless)
    (groupIdx : Nat) :
    handler.copies (handler.partBlocks (placement.part handler groupIdx)) =
      placement.rightCopies := by
  refine (counted_copies onStore chunks).trans ?_
  apply List.ext_getElem
  · simp [rightCopies]
  · intro index _ inRight
    have within : index < placement.blocks.length := by simpa [rightCopies] using inRight
    have place : placement.blocks[index].2 = placement.blockIndex % blocksPerChunk + index := by
      have here := congrArg (fun places => places[index]?) gapless
      simpa [within] using here
    simp [rightCopies, place, part]

/-- Without a gap the blocks end with the last place of the last CPU block. -/
theorem gapless_end (gapless : placement.Gapless) (some : placement.cpuBlocks ≠ []) :
    placement.blockIndex % blocksPerChunk + placement.blocks.length =
      placement.cpuBlocks.length * blocksPerChunk := by
  obtain ⟨block, member, last⟩ := placement.full some
  have places : ∀ place, place ∈ placement.blocks.map Prod.snd ↔
      placement.blockIndex % blocksPerChunk ≤ place ∧
        place < placement.blockIndex % blocksPerChunk + placement.blocks.length := by
    intro place
    rw [gapless, List.mem_range'_1]
  have ends := (places block.2).mp (List.mem_map_of_mem member)
  obtain ⟨final, finalMember, isFinal⟩ := List.mem_map.mp ((places
    (placement.blockIndex % blocksPerChunk + placement.blocks.length - 1)).mpr (by omega))
  have inside := placement.bounded final finalMember
  omega

theorem none_without_blocks (none : placement.blocks = []) : placement.cpuBlocks = [] := by
  by_contra some
  obtain ⟨block, member, _⟩ := placement.full some
  rw [none] at member
  cases member

theorem none_without_cpu_blocks (none : placement.cpuBlocks = []) : placement.blocks = [] := by
  apply List.eq_nil_iff_forall_not_mem.mpr
  intro block member
  have inside := placement.bounded block member
  rw [none, List.length_nil, Nat.zero_mul] at inside
  omega

theorem gapless_fits (onStore : handler.gpuToCpu = true)
    (chunks : handler.blocksPerChunk = blocksPerChunk) (gapless : placement.Gapless)
    {groupIdx : Nat} (within : groupIdx < handler.layerRefsPerGroup.length) :
    handler.PartFits (placement.part handler groupIdx) := by
  have positive := handler.blocks_pos
  constructor
  · simp [part, within]
  · simp only [part, src_blocks_on_store onStore, List.length_map, Nat.mod_one, Nat.add_zero]
    split
    · assumption
    · simp [cdiv]
  · simp only [part, dst_blocks_on_store onStore, chunks]
    split
    · rename_i none
      rw [none_without_blocks (List.length_eq_zero_iff.mp none), List.length_nil]
    · rename_i some
      have nonempty : placement.cpuBlocks ≠ [] := fun none =>
        some (List.length_eq_zero_iff.mpr (none_without_cpu_blocks none))
      rw [Nat.add_comm, gapless_end gapless nonempty, Nat.mul_comm,
        cdiv_mul_self _ (chunks ▸ positive)]

end Placement

section Plain

variable {blocksPerChunk : Nat}

/-- A worker whose groups have one layer each, with rows of one byte for each sub-block. -/
def plainHandler (blocksPerChunk : Nat) (positive : 0 < blocksPerChunk) (numGroups : Nat) :
    SingleDirectionOffloadingHandler where
  gpuTensors := [⟨0, 1, 1⟩]
  cpuTensors := [⟨0, blocksPerChunk, blocksPerChunk⟩]
  gpuToCpu := true
  blocksPerChunk := blocksPerChunk
  layerRefsPerGroup := List.replicate numGroups [⟨0, 1, [], 1, 0⟩]
  canonicalLayout := false
  blocks_pos := positive
  tensors := by
    intro refs member ref refMember
    obtain ⟨_, rfl⟩ := List.mem_replicate.mp member
    obtain rfl := List.mem_singleton.mp refMember
    exact ⟨_, _, rfl, rfl, dvd_rfl⟩

variable {positive : 0 < blocksPerChunk} {numGroups : Nat}

/-- The address of a descriptor names the CPU block and the sub-block. -/
theorem plain_ops {groupIdx : Nat} (within : groupIdx < numGroups) (copied : List Copy) :
    ((plainHandler blocksPerChunk positive numGroups).layerRefsPerGroup.getD groupIdx []).flatMap
        ((plainHandler blocksPerChunk positive numGroups).layerOps copied) =
      copied.map fun copy =>
        ⟨copy.1.1 + copy.1.2, copy.2.1 * blocksPerChunk + copy.2.2, 1⟩ := by
  have whole : blocksPerChunk / blocksPerChunk = 1 := Nat.div_self positive
  simp [plainHandler, within, layerOps, pointers, srcTensors, dstTensors, Tensor.pointer,
    srcBlocksPerChunk, dstBlocksPerChunk, whole]

/-- Two sub-blocks of distinct blocks with one address are the same. -/
theorem slot_address_inj (positive : 0 < blocksPerChunk) {cpuBlocks : List Nat}
    (apart : cpuBlocks.Nodup) {first second : Nat}
    (firstInside : first < cpuBlocks.length * blocksPerChunk)
    (secondInside : second < cpuBlocks.length * blocksPerChunk)
    (same : (slot blocksPerChunk cpuBlocks first).1 * blocksPerChunk +
        (slot blocksPerChunk cpuBlocks first).2 =
      (slot blocksPerChunk cpuBlocks second).1 * blocksPerChunk +
        (slot blocksPerChunk cpuBlocks second).2) : first = second := by
  have firstBlock : first / blocksPerChunk < cpuBlocks.length :=
    Nat.div_lt_of_lt_mul (firstInside.trans_eq (Nat.mul_comm _ _))
  have secondBlock : second / blocksPerChunk < cpuBlocks.length :=
    Nat.div_lt_of_lt_mul (secondInside.trans_eq (Nat.mul_comm _ _))
  simp only [slot, List.getD_eq_getElem _ _ firstBlock, List.getD_eq_getElem _ _ secondBlock]
    at same
  have places := congrArg (· % blocksPerChunk) same
  have blocks := congrArg (· / blocksPerChunk) same
  simp only [Nat.mul_add_mod_self_right, Nat.mod_mod] at places
  simp only [Nat.mul_comm _ blocksPerChunk, Nat.mul_add_div positive,
    Nat.div_eq_of_lt (Nat.mod_lt _ positive), Nat.add_zero] at blocks
  have sameBlock := (apart.getElem_inj_iff).mp blocks
  rw [← Nat.div_add_mod first blocksPerChunk, ← Nat.div_add_mod second blocksPerChunk, places,
    sameBlock]

/-- Descriptors at the right addresses put every block to its own place. -/
theorem gapless_of_addresses {placement : Placement blocksPerChunk} {cpuBlocks : List Nat}
    (positive : 0 < blocksPerChunk) (apart : cpuBlocks.Nodup)
    (starts : placement.cpuBlocks <+: cpuBlocks)
    (enough : placement.blockIndex % blocksPerChunk + placement.blocks.length ≤
      cpuBlocks.length * blocksPerChunk)
    (same : ∀ index, ∀ within : index < placement.blocks.length,
      (slot blocksPerChunk cpuBlocks (placement.blockIndex % blocksPerChunk + index)).1 *
          blocksPerChunk +
        (slot blocksPerChunk cpuBlocks (placement.blockIndex % blocksPerChunk + index)).2 =
      (slot blocksPerChunk placement.cpuBlocks placement.blocks[index].2).1 * blocksPerChunk +
        (slot blocksPerChunk placement.cpuBlocks placement.blocks[index].2).2) :
    placement.Gapless := by
  apply List.ext_getElem
  · simp
  · intro index inPlaces _
    have within : index < placement.blocks.length := by simpa using inPlaces
    have inside := placement.bounded _ (List.getElem_mem within)
    have inBlocks : placement.blocks[index].2 / blocksPerChunk < placement.cpuBlocks.length :=
      Nat.div_lt_of_lt_mul (inside.trans_eq (Nat.mul_comm _ _))
    obtain ⟨others, rfl⟩ := starts
    have own : slot blocksPerChunk placement.cpuBlocks placement.blocks[index].2 =
        slot blocksPerChunk (placement.cpuBlocks ++ others) placement.blocks[index].2 := by
      simp only [slot]
      rw [List.getD_append _ _ _ _ inBlocks]
    have address := same index within
    rw [own] at address
    have place := slot_address_inj positive apart (by omega)
      (inside.trans_le (by
        rw [List.length_append]
        exact Nat.mul_le_mul_right _ (Nat.le_add_right _ _))) address
    simp [← place]

theorem slot_take {cpuBlocks : List Nat} {count index : Nat}
    (inside : index < blocksPerChunk * count) :
    slot blocksPerChunk (cpuBlocks.take count) index = slot blocksPerChunk cpuBlocks index := by
  have within : index / blocksPerChunk < count := Nat.div_lt_of_lt_mul inside
  simp only [slot, List.getD_eq_getElem?_getD, List.getElem?_take_of_lt within]

/-- What the decoding of a first group with blocks does. -/
theorem transfer_groups_cons {handler : SingleDirectionOffloadingHandler} {entry : GroupEntry}
    {entries : List GroupEntry} {srcBlocks dstBlocks srcLeft dstLeft : List Nat}
    {ops : List CopyOp} (some : entry.groupSize ≠ 0)
    (decoded : handler.transferGroups (entry :: entries) srcBlocks dstBlocks =
      .ok (ops, srcLeft, dstLeft)) {srcCount dstCount : Nat}
    (isSrcCount : cdiv (entry.groupSize + entry.blockIndex % handler.srcBlocksPerChunk)
      handler.srcBlocksPerChunk = srcCount)
    (isDstCount : cdiv (entry.groupSize + entry.blockIndex % handler.dstBlocksPerChunk)
      handler.dstBlocksPerChunk = dstCount) :
    srcCount ≤ srcBlocks.length ∧ dstCount ≤ dstBlocks.length ∧ ∃ filled others,
      handler.fillGroupOps
        { src := srcBlocks.take srcCount
          dst := dstBlocks.take dstCount
          groupSize := entry.groupSize
          srcSkipCount := entry.blockIndex % handler.srcBlocksPerChunk
          dstSkipCount := entry.blockIndex % handler.dstBlocksPerChunk } entry.refs =
        .ok filled ∧
      handler.transferGroups entries (srcBlocks.drop srcCount) (dstBlocks.drop dstCount) =
        .ok (others, srcLeft, dstLeft) ∧ ops = filled ++ others := by
  subst isSrcCount isDstCount
  rw [transferGroups, if_neg some] at decoded
  obtain ⟨_, dstEnough, decoded⟩ := bind_eq_ok.mp decoded
  obtain ⟨_, srcEnough, decoded⟩ := bind_eq_ok.mp decoded
  obtain ⟨filled, filledOk, decoded⟩ := bind_eq_ok.mp decoded
  obtain ⟨⟨others, _, _⟩, later, done⟩ := bind_eq_ok.mp decoded
  cases done
  exact ⟨py_assert_eq_ok.mp srcEnough, py_assert_eq_ok.mp dstEnough, filled, others, filledOk,
    later, rfl⟩

/-- The descriptors that the worker makes of a group. -/
theorem plain_filled (placement : Placement blocksPerChunk) {groupIdx : Nat}
    (within : groupIdx < numGroups) {cpuBlocks : List Nat}
    (enough : placement.blockIndex % blocksPerChunk + placement.blocks.length ≤
      cpuBlocks.length * blocksPerChunk) :
    (plainHandler blocksPerChunk positive numGroups).fillGroupOps
        { src := placement.blocks.map Prod.fst
          dst := cpuBlocks
          groupSize := placement.blocks.length
          srcSkipCount := placement.blockIndex % 1
          dstSkipCount := placement.blockIndex % blocksPerChunk }
        ((plainHandler blocksPerChunk positive numGroups).layerRefsPerGroup.getD groupIdx []) =
      .ok (placement.blocks.mapIdx fun index block =>
        ⟨block.1,
          (slot blocksPerChunk cpuBlocks (placement.blockIndex % blocksPerChunk + index)).1 *
              blocksPerChunk +
            (slot blocksPerChunk cpuBlocks (placement.blockIndex % blocksPerChunk + index)).2,
          1⟩) := by
  have known : (plainHandler blocksPerChunk positive numGroups).layerRefsPerGroup.getD groupIdx []
      ∈ (plainHandler blocksPerChunk positive numGroups).layerRefsPerGroup := by
    simp [plainHandler, within]
    omega
  have copied := @Placement.counted_copies blocksPerChunk placement
    (plainHandler blocksPerChunk positive numGroups) rfl rfl cpuBlocks
  refine (fill_group_ops_ok ⟨?_, ?_, ?_, enough⟩ known _ fun _ member => member).trans ?_
  · exact Nat.mod_lt _ Nat.one_pos
  · exact Nat.mod_lt _ positive
  · simp [plainHandler, srcBlocksPerChunk, Nat.mod_one]
  · rw [plain_ops within]
    refine congrArg Except.ok ((congrArg (List.map _) copied).trans ?_)
    apply List.ext_getElem
    · simp
    · simp

/-- A first group that is decoded to its own places leaves the others as they are. -/
theorem decoded_step {placement : Placement blocksPerChunk} {groupIdx : Nat}
    (within : groupIdx < numGroups) {entries : List GroupEntry} {srcBlocks dstBlocks : List Nat}
    (apart : (placement.cpuBlocks ++ dstBlocks).Nodup) {ops : List CopyOp}
    (decoded : (plainHandler blocksPerChunk positive numGroups).transferGroups
        ((placement.part (plainHandler blocksPerChunk positive numGroups) groupIdx).entry ::
          entries)
        (placement.blocks.map Prod.fst ++ srcBlocks) (placement.cpuBlocks ++ dstBlocks) =
      .ok (placement.rightOps (plainHandler blocksPerChunk positive numGroups) groupIdx ++ ops,
        [], [])) :
    placement.Gapless ∧ (plainHandler blocksPerChunk positive numGroups).transferGroups entries
      srcBlocks dstBlocks = .ok (ops, [], []) := by
  have onStore : (plainHandler blocksPerChunk positive numGroups).gpuToCpu = true := rfl
  by_cases none : placement.blocks = []
  · have noCpu := Placement.none_without_blocks none
    have noOps : placement.rightOps (plainHandler blocksPerChunk positive numGroups) groupIdx =
        [] := by
      rw [Placement.rightOps, plain_ops within, Placement.rightCopies, none]
      rfl
    have noEntry : (placement.part (plainHandler blocksPerChunk positive numGroups)
        groupIdx).entry.groupSize = 0 := by
      simp [Placement.part, none]
    refine ⟨by simp [Placement.Gapless, none], ?_⟩
    rw [transferGroups, if_pos noEntry, none, noCpu, noOps] at decoded
    exact decoded
  · have some : (placement.part (plainHandler blocksPerChunk positive numGroups)
        groupIdx).entry.groupSize ≠ 0 := by
      simpa [Placement.part] using none
    have isSrcCount : cdiv (placement.blocks.length + placement.blockIndex % 1) 1 =
        (placement.blocks.map Prod.fst).length := by
      simp [Nat.mod_one, cdiv]
    obtain ⟨dstCount, isDstCount⟩ : ∃ dstCount, cdiv (placement.blocks.length +
      placement.blockIndex % blocksPerChunk) blocksPerChunk = dstCount := ⟨_, rfl⟩
    obtain ⟨_, dstEnough, filled, others, filledOk, later, same⟩ :=
      transfer_groups_cons some decoded isSrcCount isDstCount
    rw [List.take_left] at filledOk
    rw [List.drop_left] at later
    -- the CPU blocks taken for the group hold its sub-blocks
    have held := (cdiv_le_iff positive).mp isDstCount.le
    have made := @plain_filled _ positive numGroups placement groupIdx within
      ((placement.cpuBlocks ++ dstBlocks).take dstCount) (by
        rw [List.length_take, min_eq_left dstEnough]
        linarith)
    have filled_eq := Except.ok.inj (filledOk.symm.trans made)
    rw [Placement.rightOps, plain_ops within, filled_eq] at same
    obtain ⟨own, rest⟩ := List.append_inj same (by simp [Placement.rightCopies])
    have enough : placement.blockIndex % blocksPerChunk + placement.blocks.length ≤
        (placement.cpuBlocks ++ dstBlocks).length * blocksPerChunk := by
      have := Nat.mul_le_mul_left blocksPerChunk dstEnough
      linarith
    have gapless : placement.Gapless := by
      apply gapless_of_addresses positive apart (List.prefix_append _ _) enough
      intro index inBlocks
      have here := congrArg (fun ops => (ops[index]?).map CopyOp.dst) own
      simp only [Placement.rightCopies, List.getElem?_map, List.getElem?_mapIdx,
        List.getElem?_eq_getElem inBlocks, Option.map_some, Option.some.injEq] at here
      rw [here, slot_take (by omega)]
    have nonempty : placement.cpuBlocks ≠ [] := fun noCpu =>
      none (Placement.none_without_cpu_blocks noCpu)
    have all : dstCount = placement.cpuBlocks.length := by
      rw [← isDstCount, Nat.add_comm, Placement.gapless_end gapless nonempty, Nat.mul_comm,
        cdiv_mul_self _ positive]
    rw [all, List.drop_left, ← rest] at later
    exact ⟨gapless, later⟩

theorem decoded_gapless (placements : Nat → Placement blocksPerChunk) (indices : List Nat)
    (within : ∀ groupIdx ∈ indices, groupIdx < numGroups)
    (apart : (indices.flatMap fun groupIdx => (placements groupIdx).cpuBlocks).Nodup)
    (decoded : (plainHandler blocksPerChunk positive numGroups).transferGroups
        (indices.map fun groupIdx => ((placements groupIdx).part
          (plainHandler blocksPerChunk positive numGroups) groupIdx).entry)
        (indices.flatMap fun groupIdx => (placements groupIdx).blocks.map Prod.fst)
        (indices.flatMap fun groupIdx => (placements groupIdx).cpuBlocks) =
      .ok (indices.flatMap fun groupIdx => (placements groupIdx).rightOps
        (plainHandler blocksPerChunk positive numGroups) groupIdx, [], [])) :
    ∀ groupIdx ∈ indices, (placements groupIdx).Gapless := by
  induction indices with
  | nil => simp
  | cons groupIdx rest ih =>
      simp only [List.flatMap_cons, List.map_cons] at apart decoded
      obtain ⟨gapless, later⟩ := decoded_step (within groupIdx List.mem_cons_self) apart decoded
      have others := ih (fun other member => within other (List.mem_cons_of_mem _ member))
        apart.of_append_right later
      intro other member
      rcases List.mem_cons.mp member with rfl | member
      · exact gapless
      · exact others other member

end Plain

section Stores

/-- A worker of the store direction with as many groups and sub-blocks as the scheduler. -/
structure Stores (handler : SingleDirectionOffloadingHandler) (blocksPerChunk numGroups : Nat) :
    Prop where
  onStore : handler.gpuToCpu = true
  chunks : handler.blocksPerChunk = blocksPerChunk
  groups : handler.layerRefsPerGroup.length = numGroups

variable {blocksPerChunk numGroups : Nat} {gpuSpec : GPULoadStoreSpec}
  {placements : Nat → Placement blocksPerChunk}

theorem store_entries {handler : SingleDirectionOffloadingHandler}
    (stores : Stores handler blocksPerChunk numGroups)
    (sizes : gpuSpec.groupSizes =
      (List.range numGroups).map fun groupIdx => (placements groupIdx).blocks.length)
    (indices : gpuSpec.blockIndices =
      (List.range numGroups).map fun groupIdx => (placements groupIdx).blockIndex) :
    handler.groupEntries gpuSpec = (List.range numGroups).map fun groupIdx =>
      ((placements groupIdx).part handler groupIdx).entry := by
  have layers := eq_map_range handler.layerRefsPerGroup []
  rw [stores.groups] at layers
  unfold groupEntries
  rw [sizes, indices, layers, List.zip_map', List.zip_map', List.map_map]
  simp [Placement.part, Function.comp_def]

/-- Every worker puts every block to its own place exactly when no group has a gap. -/
theorem decodes_iff (positive : 0 < blocksPerChunk) {cpuBlockIds : List Nat}
    (apart : cpuBlockIds.Nodup)
    (sizes : gpuSpec.groupSizes =
      (List.range numGroups).map fun groupIdx => (placements groupIdx).blocks.length)
    (indices : gpuSpec.blockIndices =
      (List.range numGroups).map fun groupIdx => (placements groupIdx).blockIndex)
    (src : gpuSpec.blockIds = (List.range numGroups).flatMap fun groupIdx =>
      (placements groupIdx).blocks.map Prod.fst)
    (dst : cpuBlockIds = (List.range numGroups).flatMap fun groupIdx =>
      (placements groupIdx).cpuBlocks) :
    (∀ handler, Stores handler blocksPerChunk numGroups →
      handler.transferAsync gpuSpec cpuBlockIds =
        .ok ((List.range numGroups).flatMap fun groupIdx =>
          (placements groupIdx).rightOps handler groupIdx)) ↔
      ∀ groupIdx < numGroups, (placements groupIdx).Gapless := by
  constructor
  · intro decodes groupIdx within
    have stores : Stores (plainHandler blocksPerChunk positive numGroups) blocksPerChunk
        numGroups := ⟨rfl, rfl, by simp [plainHandler]⟩
    have decoded := decodes _ stores
    unfold transferAsync at decoded
    obtain ⟨_, _, decoded⟩ := bind_eq_ok.mp decoded
    obtain ⟨_, _, decoded⟩ := bind_eq_ok.mp decoded
    obtain ⟨⟨ops, srcLeft, dstLeft⟩, transferred, decoded⟩ := bind_eq_ok.mp decoded
    obtain ⟨_, srcEmpty, decoded⟩ := bind_eq_ok.mp decoded
    obtain ⟨_, dstEmpty, decoded⟩ := bind_eq_ok.mp decoded
    obtain ⟨_, _, done⟩ := bind_eq_ok.mp decoded
    rw [py_assert_eq_ok.mp srcEmpty, py_assert_eq_ok.mp dstEmpty, Except.ok.inj done]
      at transferred
    rw [store_entries stores sizes indices] at transferred
    simp only [stores.onStore, if_true, src, dst] at transferred
    rw [dst] at apart
    exact decoded_gapless placements _ (fun _ => List.mem_range.mp) apart transferred groupIdx
      (List.mem_range.mpr within)
  · intro gapless handler stores
    have parts := @transfer_async_ok handler gpuSpec cpuBlockIds (by
        rw [sizes, stores.groups, List.length_map, List.length_range])
      ((List.range numGroups).map fun groupIdx => (placements groupIdx).part handler groupIdx) (by
        intro part member
        obtain ⟨groupIdx, within, rfl⟩ := List.mem_map.mp member
        have inside := List.mem_range.mp within
        exact Placement.gapless_fits stores.onStore stores.chunks (gapless groupIdx inside)
          (inside.trans_eq stores.groups.symm)) (by
        rw [store_entries stores sizes indices, List.map_map]
        rfl) (by
        rw [stores.onStore, List.flatMap_map]
        exact src.symm) (by
        rw [stores.onStore, List.flatMap_map]
        exact dst.symm)
    rw [parts, List.flatMap_map]
    congr 1
    apply List.flatMap_congr
    intro groupIdx within
    rw [partOps, Placement.gapless_copies stores.onStore stores.chunks
      (gapless groupIdx (List.mem_range.mp within))]
    rfl

end Stores

end KvOffload.StoreDecoding
