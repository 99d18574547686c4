import KvOffload.Base

/-!
# Transfers of the worker

`transfer_async` of one direction: how a GPU spec and a list of CPU blocks become copy
descriptors. A CPU block holds `blocksPerChunk` sub-blocks of the size of a GPU block.
Streams, events and the pool of descriptor buffers are left out.
-/

namespace KvOffload.GpuTransfer

open KvOffload KvOffload.Base

set_option autoImplicit false

/-- Address and shape of a tensor with one row a block, in bytes. -/
structure Tensor where
  dataPtr : Nat
  rowStride : Nat
  rowBytes : Nat

/-- One fragment of a page in the canonical layout. -/
structure Fragment where
  srcOffset : Nat
  dstOffset : Nat
  size : Nat

/-- A layer of a group; the writers and fragments are read in the canonical layout only. -/
structure DataRef where
  tensorIdx : Nat
  pageSizeBytes : Nat
  fragments : List Fragment
  numWriters : Nat
  writerIndex : Nat

/-- Every layer has a tensor on both sides, and the constructor asserts that the rows of
the CPU tensors hold whole sub-blocks. -/
structure SingleDirectionOffloadingHandler where
  gpuTensors : List Tensor
  cpuTensors : List Tensor
  gpuToCpu : Bool
  blocksPerChunk : Nat
  layerRefsPerGroup : List (List DataRef)
  canonicalLayout : Bool
  blocks_pos : 0 < blocksPerChunk
  tensors : ∀ refs ∈ layerRefsPerGroup, ∀ ref ∈ refs, ∃ gpuTensor cpuTensor,
    gpuTensors[ref.tensorIdx]? = some gpuTensor ∧ cpuTensors[ref.tensorIdx]? = some cpuTensor ∧
      blocksPerChunk ∣ cpuTensor.rowBytes

structure CopyOp where
  src : Nat
  dst : Nat
  size : Nat
  deriving DecidableEq

/-- `output[:] = values`: a single value is broadcast. -/
def assignSlice (count : Nat) (values : List Nat) : Except PyError (List Nat) :=
  if values.length = count then .ok values
  else match values with
    | [value] => .ok (List.replicate count value)
    | _ => .error .valueError

/-- The pointers of all sub-blocks of a block. -/
def subBlockPtrs (blocksPerChunk : Nat) (tensor : Tensor) (blockId : Nat) : List Nat :=
  (List.range blocksPerChunk).map fun subBlock =>
    tensor.dataPtr + blockId * tensor.rowStride +
      subBlock * (tensor.rowBytes / blocksPerChunk)

def computeSubBlockPtrs (blockIds : List Nat) (blocksPerChunk count : Nat) (tensor : Tensor)
    (skipCount : Nat) : Except PyError (List Nat) := do
  pyAssert (skipCount < blocksPerChunk)
  if blocksPerChunk = 1 then
    assignSlice count
      ((blockIds.take count).map fun blockId => tensor.dataPtr + blockId * tensor.rowStride)
  else do
    pyAssert (tensor.rowBytes % blocksPerChunk = 0)
    assignSlice count
      (((blockIds.flatMap (subBlockPtrs blocksPerChunk tensor)).drop skipCount).take count)

/-- The page numbers by which ranks with equal bytes take turns. -/
def canonicalPageIds (blockIds : List Nat) (blocksPerChunk count skipCount : Nat) : List Nat :=
  if blocksPerChunk = 1 then blockIds.take count
  else ((blockIds.flatMap fun blockId => (List.range blocksPerChunk).map fun subBlock =>
    blockId * blocksPerChunk + subBlock).drop skipCount).take count

namespace SingleDirectionOffloadingHandler

variable (handler : SingleDirectionOffloadingHandler)

def srcTensors : List Tensor :=
  if handler.gpuToCpu then handler.gpuTensors else handler.cpuTensors

def dstTensors : List Tensor :=
  if handler.gpuToCpu then handler.cpuTensors else handler.gpuTensors

def srcBlocksPerChunk : Nat := if handler.gpuToCpu then 1 else handler.blocksPerChunk

def dstBlocksPerChunk : Nat := if handler.gpuToCpu then handler.blocksPerChunk else 1

/-- The blocks of one group on both sides, and the sub-blocks to skip in the first. -/
structure GroupBlocks where
  src : List Nat
  dst : List Nat
  groupSize : Nat
  srcSkipCount : Nat
  dstSkipCount : Nat

/-- The source and the destination pointer of every block of a group, for one layer. -/
def blockBases (blocks : GroupBlocks) (ref : DataRef) : Except PyError (List (Nat × Nat)) :=
  match handler.srcTensors[ref.tensorIdx]?, handler.dstTensors[ref.tensorIdx]? with
  | some srcTensor, some dstTensor => do
      let srcPtrs ← computeSubBlockPtrs blocks.src handler.srcBlocksPerChunk blocks.groupSize
        srcTensor blocks.srcSkipCount
      let dstPtrs ← computeSubBlockPtrs blocks.dst handler.dstBlocksPerChunk blocks.groupSize
        dstTensor blocks.dstSkipCount
      .ok (srcPtrs.zip dstPtrs)
  | _, _ => .error .indexError

/-- Of a store with several writers, the blocks this rank writes. -/
def filterWriterBlocks (blocks : GroupBlocks) (ref : DataRef) (bases : List (Nat × Nat)) :
    List (Nat × Nat) :=
  if handler.gpuToCpu && decide (1 < ref.numWriters) then
    ((bases.zip (canonicalPageIds blocks.dst handler.dstBlocksPerChunk blocks.groupSize
      blocks.dstSkipCount)).filter fun entry =>
        entry.2 % ref.numWriters = ref.writerIndex).map Prod.fst
  else bases

def fillDirectOps (blocks : GroupBlocks) (ref : DataRef) : Except PyError (List CopyOp) := do
  let bases ← handler.blockBases blocks ref
  .ok (bases.map fun base => ⟨base.1, base.2, ref.pageSizeBytes⟩)

def fillCanonicalOps (blocks : GroupBlocks) (ref : DataRef) : Except PyError (List CopyOp) :=
  if ref.fragments = [] then .ok []
  else do
    let bases ← handler.blockBases blocks ref
    .ok ((handler.filterWriterBlocks blocks ref bases).flatMap fun base =>
      ref.fragments.map fun fragment =>
        ⟨base.1 + fragment.srcOffset, base.2 + fragment.dstOffset, fragment.size⟩)

def fillLayerOps (blocks : GroupBlocks) (ref : DataRef) : Except PyError (List CopyOp) :=
  if handler.canonicalLayout then handler.fillCanonicalOps blocks ref
  else handler.fillDirectOps blocks ref

def fillGroupOps (blocks : GroupBlocks) : List DataRef → Except PyError (List CopyOp)
  | [] => .ok []
  | ref :: rest => do
      let ops ← handler.fillLayerOps blocks ref
      let others ← fillGroupOps blocks rest
      .ok (ops ++ others)

/-- Size, block index and layers of one group. -/
structure GroupEntry where
  groupSize : Nat
  blockIndex : Nat
  refs : List DataRef

/-- The loop over the groups, with the blocks that are left on both sides. -/
def transferGroups : List GroupEntry → List Nat → List Nat →
    Except PyError (List CopyOp × List Nat × List Nat)
  | [], srcBlocks, dstBlocks => .ok ([], srcBlocks, dstBlocks)
  | entry :: rest, srcBlocks, dstBlocks =>
      if entry.groupSize = 0 then transferGroups rest srcBlocks dstBlocks
      else do
        let srcSkip := entry.blockIndex % handler.srcBlocksPerChunk
        let dstSkip := entry.blockIndex % handler.dstBlocksPerChunk
        let dstCount := cdiv (entry.groupSize + dstSkip) handler.dstBlocksPerChunk
        pyAssert (dstCount ≤ dstBlocks.length)
        let srcCount := cdiv (entry.groupSize + srcSkip) handler.srcBlocksPerChunk
        pyAssert (srcCount ≤ srcBlocks.length)
        let ops ← handler.fillGroupOps
          { src := srcBlocks.take srcCount
            dst := dstBlocks.take dstCount
            groupSize := entry.groupSize
            srcSkipCount := srcSkip
            dstSkipCount := dstSkip } entry.refs
        let (others, srcLeft, dstLeft) ←
          transferGroups rest (srcBlocks.drop srcCount) (dstBlocks.drop dstCount)
        .ok (ops ++ others, srcLeft, dstLeft)

def opsPerBlock (refs : List DataRef) : Nat :=
  if handler.canonicalLayout then (refs.map fun ref => ref.fragments.length).sum
  else refs.length

def groupEntries (gpuSpec : GPULoadStoreSpec) : List GroupEntry :=
  ((gpuSpec.groupSizes.zip gpuSpec.blockIndices).zip handler.layerRefsPerGroup).map
    fun entry => ⟨entry.1.1, entry.1.2, entry.2⟩

def estimateMaxCopyOps (gpuSpec : GPULoadStoreSpec) : Nat :=
  ((handler.groupEntries gpuSpec).map fun entry =>
    entry.groupSize * handler.opsPerBlock entry.refs).sum

/-- The descriptors of a transfer between the GPU blocks of the spec and CPU blocks. -/
def transferAsync (gpuSpec : GPULoadStoreSpec) (cpuBlockIds : List Nat) :
    Except PyError (List CopyOp) := do
  pyAssert (gpuSpec.groupSizes.length = handler.layerRefsPerGroup.length)
  pyAssert (gpuSpec.blockIndices.length = handler.layerRefsPerGroup.length)
  let srcBlocks := if handler.gpuToCpu then gpuSpec.blockIds else cpuBlockIds
  let dstBlocks := if handler.gpuToCpu then cpuBlockIds else gpuSpec.blockIds
  let (ops, srcLeft, dstLeft) ←
    handler.transferGroups (handler.groupEntries gpuSpec) srcBlocks dstBlocks
  pyAssert (srcLeft = [])
  pyAssert (dstLeft = [])
  pyAssert (ops.length ≤ handler.estimateMaxCopyOps gpuSpec)
  .ok ops

end SingleDirectionOffloadingHandler

/-- The sub-block with number `index` of a list of blocks: its block and its place there. -/
def slot (blocksPerChunk : Nat) (blockIds : List Nat) (index : Nat) : Nat × Nat :=
  (blockIds.getD (index / blocksPerChunk) 0, index % blocksPerChunk)

/-- Counting on from an offset inside a block is counting from the logical start. -/
theorem slot_skip {blocksPerChunk : Nat} (positive : 0 < blocksPerChunk) (blockIds : List Nat)
    (base index : Nat) :
    slot blocksPerChunk blockIds (base % blocksPerChunk + index) =
      (blockIds.getD ((index + base) / blocksPerChunk - base / blocksPerChunk) 0,
        (index + base) % blocksPerChunk) := by
  have whole : index + base =
      blocksPerChunk * (base / blocksPerChunk) + (base % blocksPerChunk + index) := by
    have split := Nat.div_add_mod base blocksPerChunk
    omega
  rw [whole, Nat.mul_add_div positive, Nat.mul_add_mod, Nat.add_sub_cancel_left]
  rfl

/-- Enumerating the sub-blocks block by block is counting through them. -/
theorem sub_blocks_eq {blocksPerChunk : Nat} (positive : 0 < blocksPerChunk)
    (blockIds : List Nat) :
    (blockIds.flatMap fun blockId => (List.range blocksPerChunk).map fun subBlock =>
        (blockId, subBlock)) =
      (List.range (blockIds.length * blocksPerChunk)).map (slot blocksPerChunk blockIds) := by
  induction blockIds with
  | nil => simp
  | cons blockId rest ih =>
      rw [List.flatMap_cons, ih, List.length_cons, Nat.succ_mul, Nat.add_comm,
        List.range_add, List.map_append, List.map_map]
      congr 1
      · apply List.map_congr_left
        intro subBlock member
        have small := List.mem_range.mp member
        simp [slot, Nat.div_eq_of_lt small, Nat.mod_eq_of_lt small]
      · apply List.map_congr_left
        intro index _
        simp [slot, Nat.add_div_left index positive]

/-- A window of the sub-blocks. -/
theorem sub_blocks_window {blocksPerChunk skip count : Nat} (positive : 0 < blocksPerChunk)
    {blockIds : List Nat} (enough : skip + count ≤ blockIds.length * blocksPerChunk) :
    ((blockIds.flatMap fun blockId => (List.range blocksPerChunk).map fun subBlock =>
        (blockId, subBlock)).drop skip).take count =
      (List.range' skip count).map (slot blocksPerChunk blockIds) := by
  rw [sub_blocks_eq positive, ← List.map_drop, ← List.map_take]
  congr 1
  rw [List.range_eq_range', List.drop_range', List.take_range'_of_length_ge (by omega)]
  simp

def Tensor.pointer (tensor : Tensor) (blocksPerChunk : Nat) (place : Nat × Nat) : Nat :=
  tensor.dataPtr + place.1 * tensor.rowStride + place.2 * (tensor.rowBytes / blocksPerChunk)

theorem assign_slice_ok {count : Nat} {values : List Nat} (length : values.length = count) :
    assignSlice count values = .ok values := by
  unfold assignSlice
  rw [if_pos length]

theorem compute_sub_block_ptrs_ok {blockIds : List Nat} {blocksPerChunk count skip : Nat}
    {tensor : Tensor} (small : skip < blocksPerChunk) (rows : blocksPerChunk ∣ tensor.rowBytes)
    (enough : skip + count ≤ blockIds.length * blocksPerChunk) :
    computeSubBlockPtrs blockIds blocksPerChunk count tensor skip =
      .ok ((List.range' skip count).map fun index =>
        tensor.pointer blocksPerChunk (slot blocksPerChunk blockIds index)) := by
  unfold computeSubBlockPtrs
  rw [py_assert_of small, ok_bind]
  by_cases single : blocksPerChunk = 1
  · subst single
    obtain rfl : skip = 0 := by omega
    rw [if_pos rfl, assign_slice_ok (by simp; omega)]
    congr 1
    apply List.ext_getElem
    · simp only [List.length_map, List.length_take, List.length_range']
      omega
    · intro index inTake inRange
      have within : index < blockIds.length := by
        simp only [List.length_map, List.length_take] at inTake
        omega
      simp [Tensor.pointer, slot, within, Nat.mod_one]
  · rw [if_neg single, py_assert_of (Nat.mod_eq_zero_of_dvd rows), ok_bind]
    have pointers : blockIds.flatMap (subBlockPtrs blocksPerChunk tensor) =
        (blockIds.flatMap fun blockId => (List.range blocksPerChunk).map fun subBlock =>
          (blockId, subBlock)).map (tensor.pointer blocksPerChunk) := by
      rw [List.map_flatMap]
      apply List.flatMap_congr
      intro blockId _
      rw [List.map_map]
      rfl
    rw [pointers, ← List.map_drop, ← List.map_take, sub_blocks_window (by omega) enough,
      List.map_map, assign_slice_ok (by simp)]
    rfl

theorem canonical_page_ids_eq {blockIds : List Nat} {blocksPerChunk count skip : Nat}
    (small : skip < blocksPerChunk) (enough : skip + count ≤ blockIds.length * blocksPerChunk) :
    canonicalPageIds blockIds blocksPerChunk count skip =
      (List.range' skip count).map fun index =>
        (slot blocksPerChunk blockIds index).1 * blocksPerChunk +
          (slot blocksPerChunk blockIds index).2 := by
  unfold canonicalPageIds
  by_cases single : blocksPerChunk = 1
  · subst single
    obtain rfl : skip = 0 := by omega
    rw [if_pos rfl]
    apply List.ext_getElem
    · simp only [List.length_map, List.length_take, List.length_range']
      omega
    · intro index inTake inRange
      have within : index < blockIds.length := by
        simp only [List.length_take] at inTake
        omega
      simp [slot, within, Nat.mod_one]
  · rw [if_neg single]
    have pages : (blockIds.flatMap fun blockId => (List.range blocksPerChunk).map fun subBlock =>
          blockId * blocksPerChunk + subBlock) =
        (blockIds.flatMap fun blockId => (List.range blocksPerChunk).map fun subBlock =>
          (blockId, subBlock)).map fun place => place.1 * blocksPerChunk + place.2 := by
      rw [List.map_flatMap]
      apply List.flatMap_congr
      intro blockId _
      rw [List.map_map]
      rfl
    rw [pages, ← List.map_drop, ← List.map_take, sub_blocks_window (by omega) enough,
      List.map_map]
    rfl

namespace SingleDirectionOffloadingHandler

variable (handler : SingleDirectionOffloadingHandler)

/-- One copied sub-block: its place among the source blocks and among the destination
blocks. -/
abbrev Copy := (Nat × Nat) × (Nat × Nat)

/-- The copies of a group: the skipped sub-blocks are left out on each side. -/
def copies (blocks : GroupBlocks) : List Copy :=
  (List.range blocks.groupSize).map fun index =>
    (slot handler.srcBlocksPerChunk blocks.src (blocks.srcSkipCount + index),
      slot handler.dstBlocksPerChunk blocks.dst (blocks.dstSkipCount + index))

def pointers (ref : DataRef) (copy : Copy) : Nat × Nat :=
  ((handler.srcTensors[ref.tensorIdx]?.map fun tensor =>
      tensor.pointer handler.srcBlocksPerChunk copy.1).getD 0,
    (handler.dstTensors[ref.tensorIdx]?.map fun tensor =>
      tensor.pointer handler.dstBlocksPerChunk copy.2).getD 0)

/-- Whether this rank makes the copy. -/
def writes (ref : DataRef) (copy : Copy) : Bool :=
  !(handler.gpuToCpu && decide (1 < ref.numWriters)) ||
    decide ((copy.2.1 * handler.dstBlocksPerChunk + copy.2.2) % ref.numWriters = ref.writerIndex)

/-- The descriptors of one layer for a list of copies. -/
def layerOps (copied : List Copy) (ref : DataRef) : List CopyOp :=
  if handler.canonicalLayout then
    (copied.filter (handler.writes ref)).flatMap fun copy => ref.fragments.map fun fragment =>
      ⟨(handler.pointers ref copy).1 + fragment.srcOffset,
        (handler.pointers ref copy).2 + fragment.dstOffset, fragment.size⟩
  else copied.map fun copy =>
    ⟨(handler.pointers ref copy).1, (handler.pointers ref copy).2, ref.pageSizeBytes⟩

/-- The blocks of a group hold its sub-blocks, on both sides. -/
structure GroupFits (blocks : GroupBlocks) : Prop where
  srcSkip : blocks.srcSkipCount < handler.srcBlocksPerChunk
  dstSkip : blocks.dstSkipCount < handler.dstBlocksPerChunk
  src : blocks.srcSkipCount + blocks.groupSize ≤ blocks.src.length * handler.srcBlocksPerChunk
  dst : blocks.dstSkipCount + blocks.groupSize ≤ blocks.dst.length * handler.dstBlocksPerChunk

variable {handler} {blocks : GroupBlocks} {refs : List DataRef} {ref : DataRef}

theorem tensors_of_ref (known : refs ∈ handler.layerRefsPerGroup) (member : ref ∈ refs) :
    ∃ src dst, handler.srcTensors[ref.tensorIdx]? = some src ∧
      handler.dstTensors[ref.tensorIdx]? = some dst ∧
        handler.srcBlocksPerChunk ∣ src.rowBytes ∧ handler.dstBlocksPerChunk ∣ dst.rowBytes := by
  obtain ⟨gpuTensor, cpuTensor, onGpu, onCpu, rows⟩ := handler.tensors refs known ref member
  unfold srcTensors dstTensors srcBlocksPerChunk dstBlocksPerChunk
  cases handler.gpuToCpu with
  | true => exact ⟨gpuTensor, cpuTensor, onGpu, onCpu, one_dvd _, rows⟩
  | false => exact ⟨cpuTensor, gpuTensor, onCpu, onGpu, rows, one_dvd _⟩

theorem block_bases_ok (fits : handler.GroupFits blocks)
    (known : refs ∈ handler.layerRefsPerGroup) (member : ref ∈ refs) :
    handler.blockBases blocks ref = .ok ((handler.copies blocks).map (handler.pointers ref)) := by
  obtain ⟨src, dst, srcFound, dstFound, srcRows, dstRows⟩ := tensors_of_ref known member
  unfold blockBases
  simp only [srcFound, dstFound]
  rw [compute_sub_block_ptrs_ok fits.srcSkip srcRows fits.src, ok_bind,
    compute_sub_block_ptrs_ok fits.dstSkip dstRows fits.dst, ok_bind]
  congr 1
  rw [List.range'_eq_map_range, List.range'_eq_map_range, List.map_map, List.map_map,
    List.zip_map', copies, List.map_map]
  simp [pointers, srcFound, dstFound, Function.comp_def]

theorem filter_writer_blocks_eq (fits : handler.GroupFits blocks) :
    handler.filterWriterBlocks blocks ref ((handler.copies blocks).map (handler.pointers ref)) =
      ((handler.copies blocks).filter (handler.writes ref)).map (handler.pointers ref) := by
  unfold filterWriterBlocks
  split
  · rename_i turns
    rw [canonical_page_ids_eq fits.dstSkip fits.dst, List.range'_eq_map_range, List.map_map,
      copies, List.map_map, List.zip_map', List.filter_map, List.filter_map, List.map_map,
      List.map_map]
    congr 1
    apply List.filter_congr
    intro index _
    simp [writes, turns]
  · rename_i alone
    congr 1
    rw [List.filter_eq_self.mpr]
    intro copy _
    simp [writes, alone]

theorem fill_group_ops_ok (fits : handler.GroupFits blocks)
    (known : refs ∈ handler.layerRefsPerGroup) (some : List DataRef)
    (within : ∀ ref ∈ some, ref ∈ refs) :
    handler.fillGroupOps blocks some =
      .ok (some.flatMap (handler.layerOps (handler.copies blocks))) := by
  induction some with
  | nil => rfl
  | cons ref rest ih =>
      have bases := block_bases_ok fits known (within ref List.mem_cons_self)
      have later := ih fun other member => within other (List.mem_cons_of_mem _ member)
      have first : handler.fillLayerOps blocks ref =
          .ok (handler.layerOps (handler.copies blocks) ref) := by
        unfold fillLayerOps layerOps fillCanonicalOps fillDirectOps
        split
        · split
          · rename_i nothing
            simp [nothing]
          · rw [bases, ok_bind, filter_writer_blocks_eq fits, List.flatMap_map]
        · rw [bases, ok_bind, List.map_map]
          rfl
      unfold fillGroupOps
      rw [first, ok_bind, later, ok_bind, List.flatMap_cons]

/-- A group of a transfer with the blocks it takes on both sides. -/
structure GroupPart where
  entry : GroupEntry
  src : List Nat
  dst : List Nat

variable (handler) in
def partBlocks (part : GroupPart) : GroupBlocks where
  src := part.src
  dst := part.dst
  groupSize := part.entry.groupSize
  srcSkipCount := part.entry.blockIndex % handler.srcBlocksPerChunk
  dstSkipCount := part.entry.blockIndex % handler.dstBlocksPerChunk

variable (handler) in
/-- The chunks that a group spans are exactly its blocks on each side. -/
structure PartFits (part : GroupPart) : Prop where
  known : part.entry.refs ∈ handler.layerRefsPerGroup
  src : part.src.length = if part.entry.groupSize = 0 then 0 else
    cdiv (part.entry.groupSize + part.entry.blockIndex % handler.srcBlocksPerChunk)
      handler.srcBlocksPerChunk
  dst : part.dst.length = if part.entry.groupSize = 0 then 0 else
    cdiv (part.entry.groupSize + part.entry.blockIndex % handler.dstBlocksPerChunk)
      handler.dstBlocksPerChunk

variable (handler) in
def partOps (part : GroupPart) : List CopyOp :=
  part.entry.refs.flatMap (handler.layerOps (handler.copies (handler.partBlocks part)))

theorem src_blocks_pos : 0 < handler.srcBlocksPerChunk := by
  unfold srcBlocksPerChunk
  split
  · exact Nat.one_pos
  · exact handler.blocks_pos

theorem dst_blocks_pos : 0 < handler.dstBlocksPerChunk := by
  unfold dstBlocksPerChunk
  split
  · exact handler.blocks_pos
  · exact Nat.one_pos

theorem group_fits {part : GroupPart} (fits : handler.PartFits part)
    (some : part.entry.groupSize ≠ 0) : handler.GroupFits (handler.partBlocks part) := by
  have src := fits.src
  have dst := fits.dst
  rw [if_neg some] at src dst
  constructor
  · exact Nat.mod_lt _ src_blocks_pos
  · exact Nat.mod_lt _ dst_blocks_pos
  · show _ ≤ part.src.length * _
    rw [src, Nat.mul_comm, Nat.add_comm]
    exact le_mul_cdiv _ src_blocks_pos
  · show _ ≤ part.dst.length * _
    rw [dst, Nat.mul_comm, Nat.add_comm]
    exact le_mul_cdiv _ dst_blocks_pos

theorem empty_part_ops {part : GroupPart} (none : part.entry.groupSize = 0) :
    handler.partOps part = [] := by
  have nothing : handler.copies (handler.partBlocks part) = [] := by
    simp [copies, partBlocks, none]
  rw [partOps, nothing, List.flatMap_eq_nil_iff]
  intro ref _
  unfold layerOps
  split <;> rfl

/-- Decoding a transfer group by group gives back the parts it was put together from. -/
theorem transfer_groups_ok (parts : List GroupPart)
    (fits : ∀ part ∈ parts, handler.PartFits part) :
    handler.transferGroups (parts.map GroupPart.entry) (parts.flatMap GroupPart.src)
        (parts.flatMap GroupPart.dst) = .ok (parts.flatMap handler.partOps, [], []) := by
  induction parts with
  | nil => rfl
  | cons part rest ih =>
      have partFits := fits part List.mem_cons_self
      have later := ih fun other member => fits other (List.mem_cons_of_mem _ member)
      have src := partFits.src
      have dst := partFits.dst
      simp only [List.map_cons, List.flatMap_cons, transferGroups]
      by_cases none : part.entry.groupSize = 0
      · rw [if_pos none] at src dst
        rw [if_pos none, List.length_eq_zero_iff.mp src, List.length_eq_zero_iff.mp dst,
          List.nil_append, List.nil_append, later, empty_part_ops none, List.nil_append]
      · rw [if_neg none] at src dst
        have filled := fill_group_ops_ok (group_fits partFits none) partFits.known
          part.entry.refs fun _ member => member
        rw [if_neg none, ← src, ← dst,
          py_assert_of (by rw [List.length_append]; omega), ok_bind,
          py_assert_of (by rw [List.length_append]; omega), ok_bind, List.take_left,
          List.take_left, List.drop_left, List.drop_left]
        simp only [partBlocks] at filled
        rw [filled, ok_bind, later]
        rfl

theorem layer_ops_length (copied : List Copy) (refs : List DataRef) :
    (refs.flatMap (handler.layerOps copied)).length ≤ copied.length * handler.opsPerBlock refs := by
  unfold layerOps opsPerBlock
  split
  · induction refs with
    | nil => simp
    | cons ref rest ih =>
        have kept := List.length_filter_le (handler.writes ref) copied
        rw [List.flatMap_cons, List.length_append, List.map_cons, List.sum_cons, Nat.mul_add]
        apply Nat.add_le_add _ ih
        simpa using Nat.mul_le_mul_right ref.fragments.length kept
  · simp [Nat.mul_comm]

theorem parts_ops_length (parts : List GroupPart) :
    (parts.flatMap handler.partOps).length ≤ ((parts.map GroupPart.entry).map fun entry =>
      entry.groupSize * handler.opsPerBlock entry.refs).sum := by
  induction parts with
  | nil => simp
  | cons part rest ih =>
      have first := handler.layer_ops_length (handler.copies (handler.partBlocks part))
        part.entry.refs
      have size : (handler.copies (handler.partBlocks part)).length = part.entry.groupSize := by
        simp [copies, partBlocks]
      rw [size] at first
      rw [List.flatMap_cons, List.length_append, List.map_cons, List.map_cons, List.sum_cons]
      exact Nat.add_le_add first ih

/-- A transfer whose spec and CPU blocks are put together from fitting parts decodes into
the copies of the parts. -/
theorem transfer_async_ok {gpuSpec : GPULoadStoreSpec} {cpuBlockIds : List Nat}
    (groups : gpuSpec.groupSizes.length = handler.layerRefsPerGroup.length)
    (parts : List GroupPart) (fits : ∀ part ∈ parts, handler.PartFits part)
    (entries : handler.groupEntries gpuSpec = parts.map GroupPart.entry)
    (src : parts.flatMap GroupPart.src =
      if handler.gpuToCpu then gpuSpec.blockIds else cpuBlockIds)
    (dst : parts.flatMap GroupPart.dst =
      if handler.gpuToCpu then cpuBlockIds else gpuSpec.blockIds) :
    handler.transferAsync gpuSpec cpuBlockIds = .ok (parts.flatMap handler.partOps) := by
  unfold transferAsync
  rw [py_assert_of groups, ok_bind, py_assert_of (gpuSpec.indices.trans groups), ok_bind,
    ← src, ← dst, entries]
  simp only
  rw [transfer_groups_ok parts fits, ok_bind]
  simp only [py_assert_of, ok_bind]
  rw [py_assert_of, ok_bind]
  rw [estimateMaxCopyOps, entries]
  exact parts_ops_length parts

end SingleDirectionOffloadingHandler

end KvOffload.GpuTransfer

