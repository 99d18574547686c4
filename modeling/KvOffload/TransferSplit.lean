import KvOffload.GpuTransfer

/-!
# Groups of a submitted transfer

A transfer that is submitted splits its blocks over the groups, by the sizes and indices of
its spec alone. Ranks that submit one spec therefore copy the same sub-blocks.
-/

namespace KvOffload.TransferSplit

open KvOffload KvOffload.Base KvOffload.GpuTransfer
open KvOffload.GpuTransfer.SingleDirectionOffloadingHandler

set_option autoImplicit false

def blockCount (blocksPerChunk groupSize blockIndex : Nat) : Nat :=
  if groupSize = 0 then 0 else cdiv (groupSize + blockIndex % blocksPerChunk) blocksPerChunk

/-- The blocks of every group, of the sizes and block indices given. -/
def splitBlocks (srcPerChunk dstPerChunk : Nat) :
    List (Nat × Nat) → List Nat → List Nat → List GroupBlocks
  | [], _, _ => []
  | (groupSize, blockIndex) :: rest, src, dst =>
      let srcCount := blockCount srcPerChunk groupSize blockIndex
      let dstCount := blockCount dstPerChunk groupSize blockIndex
      { src := src.take srcCount
        dst := dst.take dstCount
        groupSize := groupSize
        srcSkipCount := blockIndex % srcPerChunk
        dstSkipCount := blockIndex % dstPerChunk } ::
          splitBlocks srcPerChunk dstPerChunk rest (src.drop srcCount) (dst.drop dstCount)

theorem split_blocks_length {srcPerChunk dstPerChunk : Nat} (shapes : List (Nat × Nat))
    (src dst : List Nat) :
    (splitBlocks srcPerChunk dstPerChunk shapes src dst).length = shapes.length := by
  induction shapes generalizing src dst with
  | nil => rfl
  | cons shape rest ih => exact congrArg Nat.succ (ih _ _)

/-- The blocks of the groups are consecutive parts of both lists. -/
theorem split_blocks_heads {srcPerChunk dstPerChunk : Nat} (shapes : List (Nat × Nat))
    (src dst : List Nat) :
    ((splitBlocks srcPerChunk dstPerChunk shapes src dst).flatMap GroupBlocks.src <+: src) ∧
      (splitBlocks srcPerChunk dstPerChunk shapes src dst).flatMap GroupBlocks.dst <+: dst := by
  induction shapes generalizing src dst with
  | nil => exact ⟨List.nil_prefix, List.nil_prefix⟩
  | cons shape rest ih =>
      obtain ⟨groupSize, blockIndex⟩ := shape
      obtain ⟨srcRest, dstRest⟩ := ih (src.drop (blockCount srcPerChunk groupSize blockIndex))
        (dst.drop (blockCount dstPerChunk groupSize blockIndex))
      have srcSplit := List.take_append_drop (blockCount srcPerChunk groupSize blockIndex) src
      have dstSplit := List.take_append_drop (blockCount dstPerChunk groupSize blockIndex) dst
      constructor
      · have joined := (List.prefix_append_right_inj
          (src.take (blockCount srcPerChunk groupSize blockIndex))).mpr srcRest
        rw [srcSplit] at joined
        exact joined
      · have joined := (List.prefix_append_right_inj
          (dst.take (blockCount dstPerChunk groupSize blockIndex))).mpr dstRest
        rw [dstSplit] at joined
        exact joined

variable {handler : SingleDirectionOffloadingHandler}

/-- The descriptors of one group. -/
def groupOps (handler : SingleDirectionOffloadingHandler) (entry : GroupBlocks × List DataRef) :
    List CopyOp :=
  entry.2.flatMap (handler.layerOps (handler.copies entry.1))

/-- A group with blocks to copy has all of them. -/
def Filled (handler : SingleDirectionOffloadingHandler) (blocks : GroupBlocks) : Prop :=
  blocks.groupSize ≠ 0 → handler.GroupFits blocks

theorem transfer_groups_split (shapes : List (Nat × Nat)) {refsList : List (List DataRef)}
    (known : ∀ refs ∈ refsList, refs ∈ handler.layerRefsPerGroup)
    (same : shapes.length = refsList.length) {src dst srcLeft dstLeft : List Nat}
    {ops : List CopyOp}
    (transferred : handler.transferGroups ((shapes.zip refsList).map fun entry =>
      ⟨entry.1.1, entry.1.2, entry.2⟩) src dst = .ok (ops, srcLeft, dstLeft)) :
    ops = ((splitBlocks handler.srcBlocksPerChunk handler.dstBlocksPerChunk shapes src dst).zip
        refsList).flatMap (groupOps handler) ∧
      ∀ blocks ∈ splitBlocks handler.srcBlocksPerChunk handler.dstBlocksPerChunk shapes src dst,
        Filled handler blocks := by
  induction shapes generalizing refsList src dst ops with
  | nil =>
      cases transferred
      exact ⟨rfl, fun _ member => by cases member⟩
  | cons shape rest ih =>
      obtain ⟨groupSize, blockIndex⟩ := shape
      cases refsList with
      | nil => cases same
      | cons refs others =>
          have knownHere := known refs List.mem_cons_self
          have knownLater : ∀ refs ∈ others, refs ∈ handler.layerRefsPerGroup :=
            fun refs member => known refs (List.mem_cons_of_mem _ member)
          have sameLater := Nat.succ.inj same
          simp only [List.zip_cons_cons, List.map_cons, transferGroups] at transferred
          by_cases none : groupSize = 0
          · subst none
            rw [if_pos rfl] at transferred
            obtain ⟨opsLater, filled⟩ := ih knownLater sameLater transferred
            simp only [splitBlocks, blockCount, if_true, List.take_zero, List.drop_zero]
            constructor
            · rw [List.zip_cons_cons, List.flatMap_cons, ← opsLater]
              have nothing : groupOps handler (⟨[], [], 0, blockIndex % handler.srcBlocksPerChunk,
                  blockIndex % handler.dstBlocksPerChunk⟩, refs) = [] := by
                simp only [groupOps, List.flatMap_eq_nil_iff]
                intro ref _
                unfold layerOps
                split <;> rfl
              rw [nothing, List.nil_append]
            · intro blocks member
              rcases List.mem_cons.mp member with rfl | later
              · exact fun some => absurd rfl some
              · exact filled blocks later
          · rw [if_neg none] at transferred
            obtain ⟨_, dstEnough, transferred⟩ := bind_eq_ok.mp transferred
            obtain ⟨_, srcEnough, transferred⟩ := bind_eq_ok.mp transferred
            obtain ⟨first, filledOps, transferred⟩ := bind_eq_ok.mp transferred
            obtain ⟨⟨laterOps, srcRest, dstRest⟩, later, done⟩ := bind_eq_ok.mp transferred
            cases done
            have dstEnough := py_assert_eq_ok.mp dstEnough
            have srcEnough := py_assert_eq_ok.mp srcEnough
            obtain ⟨opsLater, filled⟩ := ih knownLater sameLater later
            have fits : handler.GroupFits ⟨src.take (blockCount handler.srcBlocksPerChunk groupSize
                blockIndex), dst.take (blockCount handler.dstBlocksPerChunk groupSize blockIndex),
                groupSize, blockIndex % handler.srcBlocksPerChunk,
                blockIndex % handler.dstBlocksPerChunk⟩ := by
              simp only [blockCount, if_neg none]
              constructor
              · exact Nat.mod_lt _ src_blocks_pos
              · exact Nat.mod_lt _ dst_blocks_pos
              · simp only [List.length_take, Nat.min_eq_left srcEnough]
                rw [Nat.mul_comm, Nat.add_comm]
                exact le_mul_cdiv _ src_blocks_pos
              · simp only [List.length_take, Nat.min_eq_left dstEnough]
                rw [Nat.mul_comm, Nat.add_comm]
                exact le_mul_cdiv _ dst_blocks_pos
            have decoded := fill_group_ops_ok fits knownHere refs fun _ member => member
            simp only [blockCount, if_neg none] at decoded fits
            have firstOps := Except.ok.inj (filledOps.symm.trans decoded)
            simp only [splitBlocks, blockCount, if_neg none]
            constructor
            · rw [List.zip_cons_cons, List.flatMap_cons, ← opsLater, firstOps]
              rfl
            · intro blocks member
              rcases List.mem_cons.mp member with rfl | inLater
              · exact fun _ => fits
              · exact filled blocks inLater

/-- The groups of a transfer, whoever submits it. -/
def transferBlocks (gpuToCpu : Bool) (blocksPerChunk : Nat) (gpuSpec : GPULoadStoreSpec)
    (cpuBlockIds : List Nat) : List GroupBlocks :=
  splitBlocks (if gpuToCpu then 1 else blocksPerChunk) (if gpuToCpu then blocksPerChunk else 1)
    (gpuSpec.groupSizes.zip gpuSpec.blockIndices)
    (if gpuToCpu then gpuSpec.blockIds else cpuBlockIds)
    (if gpuToCpu then cpuBlockIds else gpuSpec.blockIds)

theorem transfer_async_split {gpuSpec : GPULoadStoreSpec} {cpuBlockIds : List Nat}
    {ops : List CopyOp} (submitted : handler.transferAsync gpuSpec cpuBlockIds = .ok ops) :
    let blocks := transferBlocks handler.gpuToCpu handler.blocksPerChunk gpuSpec cpuBlockIds
    ops = (blocks.zip handler.layerRefsPerGroup).flatMap (groupOps handler) ∧
      blocks.length = handler.layerRefsPerGroup.length ∧
      ∀ group ∈ blocks, Filled handler group := by
  unfold transferAsync at submitted
  obtain ⟨_, sizes, submitted⟩ := bind_eq_ok.mp submitted
  obtain ⟨_, indices, submitted⟩ := bind_eq_ok.mp submitted
  obtain ⟨⟨groupOps, srcLeft, dstLeft⟩, transferred, submitted⟩ := bind_eq_ok.mp submitted
  obtain ⟨_, _, submitted⟩ := bind_eq_ok.mp submitted
  obtain ⟨_, _, submitted⟩ := bind_eq_ok.mp submitted
  obtain ⟨_, _, done⟩ := bind_eq_ok.mp submitted
  cases done
  have sizes := py_assert_eq_ok.mp sizes
  have indices := py_assert_eq_ok.mp indices
  have shapes : (gpuSpec.groupSizes.zip gpuSpec.blockIndices).length =
      handler.layerRefsPerGroup.length := by
    rw [List.length_zip, sizes, indices, Nat.min_self]
  obtain ⟨same, filled⟩ := transfer_groups_split _ (fun _ member => member) shapes transferred
  exact ⟨same, (split_blocks_length _ _ _).trans shapes, filled⟩

end KvOffload.TransferSplit
