import KvOffload.ByteSpans
import KvOffload.GpuTransfer

/-!
# Layout of the CPU tier

How the bytes of the shared region are divided: rows of one chunk each, in a row one cell
for each worker, in a cell one area for each canonical tensor, and in an area the
sub-blocks of the chunk. The spec computes the sizes, the region carves the areas call by
call, and the handlers compute the pointers. The file behind the region, its population
and its registration with the driver are left out.
-/

namespace KvOffload.TierLayout

open KvOffload KvOffload.Base KvOffload.ByteSpans KvOffload.GpuTransfer

set_option autoImplicit false

/-- `round_up` of the utilities, of which only the direction of the rounding is used. -/
structure Rounding where
  roundUp : Nat → Nat → Nat
  le_roundUp : ∀ value {multiple : Nat}, 0 < multiple → value ≤ roundUp value multiple

structure OffloadingConfig where
  workerKvBytesPerBlock : Nat
  worldSize : Nat
  replicatedLayout : Bool
  blocksPerChunk : Nat
  cpuBytesToUse : Nat
  blocks_pos : 0 < blocksPerChunk

/-- What differs between hosts: the platform, the pages of the system, the alignment of the
backing of the tier, and the rounding. -/
structure Platform where
  usesSharedRegion : Bool
  pageSize : Nat
  blockSizeAlignment : Nat
  rounding : Rounding
  alignment_pos : 0 < blockSizeAlignment

structure CPUOffloadingSpec where
  config : OffloadingConfig
  platform : Platform
  replicatedLayout : Bool
  numBlocks : Nat
  kvBytesPerChunk : Nat
  cpuPageSizePerWorker : Nat

/-- `CPUOffloadingSpec.__init__`. -/
def CPUOffloadingSpec.init (platform : Platform) (config : OffloadingConfig) :
    Except PyError CPUOffloadingSpec :=
  if config.cpuBytesToUse = 0 then .error .exception
  else
    let replicatedLayout := config.replicatedLayout && platform.usesSharedRegion
    if 0 < config.workerKvBytesPerBlock ∧ 0 < config.worldSize then
      let numCopies := if replicatedLayout then 1 else config.worldSize
      let kvBytesPerBlock := config.workerKvBytesPerBlock * numCopies
      let kvBytesPerChunk := kvBytesPerBlock * config.blocksPerChunk
      let alignedKvBytesPerChunk :=
        platform.rounding.roundUp kvBytesPerChunk platform.blockSizeAlignment
      .ok
        { config := config
          platform := platform
          replicatedLayout := replicatedLayout
          numBlocks := config.cpuBytesToUse / alignedKvBytesPerChunk
          kvBytesPerChunk := alignedKvBytesPerChunk
          cpuPageSizePerWorker := kvBytesPerChunk / numCopies }
    else .ok ⟨config, platform, replicatedLayout, 0, 0, 0⟩

/-- The region as one worker maps it. -/
structure SharedOffloadRegion where
  basePtr : Nat
  numBlocks : Nat
  rowStride : Nat
  rank : Nat
  workerOffset : Nat
  workerAreaEnd : Nat

namespace SharedOffloadRegion

def totalSizeBytes (region : SharedOffloadRegion) : Nat := region.numBlocks * region.rowStride

/-- `SharedOffloadRegion.__init__`. -/
def init (pageSize basePtr numBlocks rank kvBytesPerBlock cpuPageSize : Nat) :
    Except PyError SharedOffloadRegion := do
  pyAssert (kvBytesPerBlock % pageSize = 0)
  .ok
    { basePtr := basePtr
      numBlocks := numBlocks
      rowStride := kvBytesPerBlock
      rank := rank
      workerOffset := rank * cpuPageSize
      workerAreaEnd := (rank + 1) * cpuPageSize }

def createNextWorkerView (region : SharedOffloadRegion) (tensorPageSize : Nat) :
    Except PyError (Tensor × SharedOffloadRegion) := do
  let newOffset := region.workerOffset + tensorPageSize
  pyAssert (newOffset ≤ region.workerAreaEnd)
  .ok (⟨region.basePtr + region.workerOffset, region.rowStride, tensorPageSize⟩,
    { region with workerOffset := newOffset })

end SharedOffloadRegion

structure CanonicalKVCacheTensor where
  dataPtr : Nat
  pageSizeBytes : Nat

/-- The tensors of the KV caches and the layers of every group. A layer uses at most the
page of its tensor. -/
structure CanonicalKVCaches where
  tensors : List CanonicalKVCacheTensor
  groupDataRefs : List (List DataRef)
  refs_fit : ∀ refs ∈ groupDataRefs, ∀ ref ∈ refs, ∃ tensor,
    tensors[ref.tensorIdx]? = some tensor ∧ ref.pageSizeBytes ≤ tensor.pageSizeBytes

/-- A GPU tensor and the CPU tensor of its blocks. -/
structure TensorPair where
  gpu : Tensor
  cpu : Tensor

/-- The pairs of the remaining tensors, with their CPU side carved out of the region. -/
def carveTensors (blocksPerChunk : Nat) :
    List CanonicalKVCacheTensor → SharedOffloadRegion → Except PyError (List TensorPair)
  | [], _ => .ok []
  | tensor :: rest, region =>
      -- Viewing a tensor as rows of zero bytes raises.
      if tensor.pageSizeBytes = 0 then .error .runtimeError
      else do
        let (cpuTensor, carved) ←
          region.createNextWorkerView (tensor.pageSizeBytes * blocksPerChunk)
        let pairs ← carveTensors blocksPerChunk rest carved
        .ok (⟨⟨tensor.dataPtr, tensor.pageSizeBytes, tensor.pageSizeBytes⟩, cpuTensor⟩ :: pairs)

/-- The pairs without a region: every CPU tensor is an allocation of its own. -/
def allocateTensors (blocksPerChunk : Nat) (zeros : Nat → Nat) :
    List CanonicalKVCacheTensor → Nat → Except PyError (List TensorPair)
  | [], _ => .ok []
  | tensor :: rest, tensorIdx =>
      if tensor.pageSizeBytes = 0 then .error .runtimeError
      else do
        let cpuPageSize := tensor.pageSizeBytes * blocksPerChunk
        let pairs ← allocateTensors blocksPerChunk zeros rest (tensorIdx + 1)
        .ok (⟨⟨tensor.dataPtr, tensor.pageSizeBytes, tensor.pageSizeBytes⟩,
          ⟨zeros tensorIdx, cpuPageSize, cpuPageSize⟩⟩ :: pairs)

/-- A pair of tensors made for a canonical tensor, as the handlers assert. -/
def TensorPair.Fits (blocksPerChunk : Nat) (pair : TensorPair) (tensor : CanonicalKVCacheTensor) :
    Prop :=
  pair.gpu.rowBytes = tensor.pageSizeBytes ∧
    pair.cpu.rowBytes = tensor.pageSizeBytes * blocksPerChunk

theorem carve_tensors_fit {blocksPerChunk : Nat} {tensors : List CanonicalKVCacheTensor}
    {region : SharedOffloadRegion} {pairs : List TensorPair}
    (carved : carveTensors blocksPerChunk tensors region = .ok pairs) :
    List.Forall₂ (TensorPair.Fits blocksPerChunk) pairs tensors := by
  induction tensors generalizing region pairs with
  | nil =>
      cases carved
      exact List.Forall₂.nil
  | cons tensor rest ih =>
      unfold carveTensors at carved
      split at carved
      · cases carved
      · obtain ⟨⟨cpuTensor, left⟩, viewed, carved⟩ := bind_eq_ok.mp carved
        obtain ⟨others, later, done⟩ := bind_eq_ok.mp carved
        obtain ⟨_, _, made⟩ := bind_eq_ok.mp viewed
        cases made
        cases done
        exact List.Forall₂.cons ⟨rfl, rfl⟩ (ih later)

theorem allocate_tensors_fit {blocksPerChunk : Nat} {zeros : Nat → Nat}
    {tensors : List CanonicalKVCacheTensor} {tensorIdx : Nat} {pairs : List TensorPair}
    (allocated : allocateTensors blocksPerChunk zeros tensors tensorIdx = .ok pairs) :
    List.Forall₂ (TensorPair.Fits blocksPerChunk) pairs tensors := by
  induction tensors generalizing tensorIdx pairs with
  | nil =>
      cases allocated
      exact List.Forall₂.nil
  | cons tensor rest ih =>
      unfold allocateTensors at allocated
      split at allocated
      · cases allocated
      · obtain ⟨others, later, done⟩ := bind_eq_ok.mp allocated
        cases done
        exact List.Forall₂.cons ⟨rfl, rfl⟩ (ih later)

/-- The handler of one direction over the pairs of a worker. -/
def newHandler (caches : CanonicalKVCaches) (blocksPerChunk : Nat) (positive : 0 < blocksPerChunk)
    (pairs : List TensorPair)
    (fit : List.Forall₂ (TensorPair.Fits blocksPerChunk) pairs caches.tensors)
    (gpuToCpu : Bool) : SingleDirectionOffloadingHandler where
  gpuTensors := pairs.map TensorPair.gpu
  cpuTensors := pairs.map TensorPair.cpu
  gpuToCpu := gpuToCpu
  blocksPerChunk := blocksPerChunk
  layerRefsPerGroup := caches.groupDataRefs
  canonicalLayout := false
  blocks_pos := positive
  tensors := by
    intro refs known ref member
    obtain ⟨tensor, found, _⟩ := caches.refs_fit refs known ref member
    obtain ⟨inTensors, _⟩ := List.getElem?_eq_some_iff.mp found
    have inPairs : ref.tensorIdx < pairs.length := fit.length_eq ▸ inTensors
    have shape := List.Forall₂.get fit inPairs inTensors
    refine ⟨pairs[ref.tensorIdx].gpu, pairs[ref.tensorIdx].cpu, ?_, ?_, ?_⟩
    · simp [inPairs]
    · simp [inPairs]
    · exact Dvd.intro_left _ shape.2.symm

structure CPUOffloadingWorker where
  mmapRegion : Option SharedOffloadRegion
  storeHandler : SingleDirectionOffloadingHandler
  loadHandler : SingleDirectionOffloadingHandler

/-- `CPUOffloadingWorker.__init__`. -/
def CPUOffloadingWorker.init (caches : CanonicalKVCaches) (blocksPerChunk : Nat)
    (positive : 0 < blocksPerChunk) (zeros : Nat → Nat) :
    Option SharedOffloadRegion → Except PyError CPUOffloadingWorker
  | some region =>
      match carved : carveTensors blocksPerChunk caches.tensors region with
      | .error problem => .error problem
      | .ok pairs => do
          pyAssert (pairs ≠ [])
          let handler := newHandler caches blocksPerChunk positive pairs (carve_tensors_fit carved)
          .ok ⟨some region, handler true, handler false⟩
  | none =>
      match allocated : allocateTensors blocksPerChunk zeros caches.tensors 0 with
      | .error problem => .error problem
      | .ok pairs => do
          pyAssert (pairs ≠ [])
          let handler :=
            newHandler caches blocksPerChunk positive pairs (allocate_tensors_fit allocated)
          .ok ⟨none, handler true, handler false⟩

/-- `create_worker` of the process on one device, which maps the region at `basePtr`. -/
def CPUOffloadingSpec.createWorker (spec : CPUOffloadingSpec) (deviceIndex basePtr : Nat)
    (zeros : Nat → Nat) (caches : CanonicalKVCaches) : Except PyError CPUOffloadingWorker :=
  if spec.platform.usesSharedRegion ∧ 0 < spec.numBlocks then do
    let rank := if spec.replicatedLayout then 0 else deviceIndex % spec.config.worldSize
    let region ← SharedOffloadRegion.init spec.platform.pageSize basePtr spec.numBlocks rank
      spec.kvBytesPerChunk spec.cpuPageSizePerWorker
    CPUOffloadingWorker.init caches spec.config.blocksPerChunk spec.config.blocks_pos zeros
      (some region)
  else
    CPUOffloadingWorker.init caches spec.config.blocksPerChunk spec.config.blocks_pos zeros none

/-! ## Host spans -/

def CPUOffloadingWorker.handler (worker : CPUOffloadingWorker) (gpuToCpu : Bool) :
    SingleDirectionOffloadingHandler :=
  if gpuToCpu then worker.storeHandler else worker.loadHandler

/-- The host pointer of a descriptor: where a store writes and a load reads. -/
def hostPtr (gpuToCpu : Bool) (op : CopyOp) : Nat := if gpuToCpu then op.dst else op.src

/-- The CPU blocks of a call. -/
def hostBlocks (gpuToCpu : Bool)
    (blocks : SingleDirectionOffloadingHandler.GroupBlocks) : List Nat :=
  if gpuToCpu then blocks.dst else blocks.src

/-- The bytes that a layer uses of a sub-block, counted from the start of the region. -/
def CPUOffloadingWorker.hostSpan (worker : CPUOffloadingWorker) (basePtr : Nat) (ref : DataRef)
    (block subBlock : Nat) : Option Span :=
  worker.storeHandler.cpuTensors[ref.tensorIdx]?.map fun view =>
    ⟨view.pointer worker.storeHandler.blocksPerChunk (block, subBlock) - basePtr,
      ref.pageSizeBytes⟩

/-- A span lies in the region, in the row of a block and in the cell of a rank there. -/
structure InTier (spec : CPUOffloadingSpec) (rank block : Nat) (span : Span) : Prop where
  region : span.Within ⟨0, spec.numBlocks * spec.kvBytesPerChunk⟩
  row : span.Within (cell 0 spec.kvBytesPerChunk block)
  slot : span.Within (cell (block * spec.kvBytesPerChunk) spec.cpuPageSizePerWorker rank)

section Areas

/-- The sizes of the areas of a cell. -/
def areaSizes (blocksPerChunk : Nat) (tensors : List CanonicalKVCacheTensor) : List Nat :=
  tensors.map fun tensor => tensor.pageSizeBytes * blocksPerChunk

theorem area_size {blocksPerChunk : Nat} {tensors : List CanonicalKVCacheTensor}
    {tensorIdx : Nat} {tensor : CanonicalKVCacheTensor}
    (found : tensors[tensorIdx]? = some tensor) :
    (areaSizes blocksPerChunk tensors)[tensorIdx]? =
      some (tensor.pageSizeBytes * blocksPerChunk) := by
  rw [areaSizes, List.getElem?_map, found, Option.map_some]

/-- What the area of a tensor in the cells of a worker is. -/
structure Carved (region : SharedOffloadRegion) (blocksPerChunk : Nat)
    (tensors : List CanonicalKVCacheTensor) (tensorIdx : Nat) (view : Tensor) : Prop where
  dataPtr : view.dataPtr =
    region.basePtr + (region.workerOffset + carvedBytes (areaSizes blocksPerChunk tensors) tensorIdx)
  rowStride : view.rowStride = region.rowStride
  room : region.workerOffset + carvedBytes (areaSizes blocksPerChunk tensors) tensorIdx + view.rowBytes ≤
    region.workerAreaEnd

theorem carve_tensors_areas {blocksPerChunk : Nat} {tensors : List CanonicalKVCacheTensor}
    {region : SharedOffloadRegion} {pairs : List TensorPair}
    (carved : carveTensors blocksPerChunk tensors region = .ok pairs) {tensorIdx : Nat}
    {pair : TensorPair} (found : pairs[tensorIdx]? = some pair) :
    Carved region blocksPerChunk tensors tensorIdx pair.cpu := by
  induction tensors generalizing region pairs tensorIdx with
  | nil =>
      cases carved
      cases found
  | cons tensor rest ih =>
      unfold carveTensors at carved
      split at carved
      · cases carved
      · obtain ⟨⟨cpuTensor, left⟩, viewed, carved⟩ := bind_eq_ok.mp carved
        obtain ⟨others, later, done⟩ := bind_eq_ok.mp carved
        obtain ⟨_, room, made⟩ := bind_eq_ok.mp viewed
        have room := py_assert_eq_ok.mp room
        cases made
        cases done
        cases tensorIdx with
        | zero =>
            cases found
            exact ⟨rfl, rfl, room⟩
        | succ previous =>
            have area := ih later found
            have moved : carvedBytes (areaSizes blocksPerChunk (tensor :: rest)) (previous + 1) =
                tensor.pageSizeBytes * blocksPerChunk +
                  carvedBytes (areaSizes blocksPerChunk rest) previous :=
              carved_bytes_cons _ _ _
            have start := area.dataPtr
            have ends := area.room
            simp only at start ends
            constructor
            · rw [start, moved, Nat.add_assoc region.workerOffset]
            · exact area.rowStride
            · rw [moved, ← Nat.add_assoc region.workerOffset]
              exact ends

end Areas

/-! ## Descriptors -/

theorem assign_slice_mem {count : Nat} {values assigned : List Nat}
    (done : assignSlice count values = .ok assigned) {pointer : Nat}
    (member : pointer ∈ assigned) : pointer ∈ values := by
  unfold assignSlice at done
  split at done
  · cases done
    exact member
  · split at done
    · cases done
      rw [List.mem_replicate] at member
      exact List.mem_singleton.mpr member.2
    · cases done

/-- Whatever is skipped, cut or broadcast, a pointer is that of a sub-block of a listed
block. -/
theorem compute_sub_block_ptrs_mem {blockIds : List Nat} {blocksPerChunk count skip : Nat}
    {tensor : Tensor} {pointers : List Nat}
    (computed : computeSubBlockPtrs blockIds blocksPerChunk count tensor skip = .ok pointers)
    {pointer : Nat} (member : pointer ∈ pointers) :
    ∃ block ∈ blockIds, ∃ subBlock < blocksPerChunk,
      pointer = tensor.pointer blocksPerChunk (block, subBlock) := by
  unfold computeSubBlockPtrs at computed
  obtain ⟨_, skipped, computed⟩ := bind_eq_ok.mp computed
  have small := py_assert_eq_ok.mp skipped
  split at computed
  · rename_i single
    obtain ⟨block, taken, rfl⟩ := List.mem_map.mp (assign_slice_mem computed member)
    refine ⟨block, List.mem_of_mem_take taken, 0, by omega, ?_⟩
    simp [Tensor.pointer]
  · obtain ⟨_, _, computed⟩ := bind_eq_ok.mp computed
    have listed := List.mem_of_mem_drop (List.mem_of_mem_take (assign_slice_mem computed member))
    obtain ⟨block, known, inBlock⟩ := List.mem_flatMap.mp listed
    obtain ⟨subBlock, inRange, rfl⟩ := List.mem_map.mp inBlock
    exact ⟨block, known, subBlock, List.mem_range.mp inRange, rfl⟩

theorem fill_direct_ops_host {handler : SingleDirectionOffloadingHandler}
    {blocks : SingleDirectionOffloadingHandler.GroupBlocks} {ref : DataRef} {ops : List CopyOp}
    (filled : handler.fillDirectOps blocks ref = .ok ops) {op : CopyOp} (member : op ∈ ops) :
    op.size = ref.pageSizeBytes ∧
      ∃ view, handler.cpuTensors[ref.tensorIdx]? = some view ∧
        ∃ block ∈ hostBlocks handler.gpuToCpu blocks, ∃ subBlock < handler.blocksPerChunk,
          hostPtr handler.gpuToCpu op = view.pointer handler.blocksPerChunk (block, subBlock) := by
  unfold SingleDirectionOffloadingHandler.fillDirectOps at filled
  obtain ⟨bases, based, done⟩ := bind_eq_ok.mp filled
  cases done
  obtain ⟨base, inBases, rfl⟩ := List.mem_map.mp member
  refine ⟨rfl, ?_⟩
  unfold SingleDirectionOffloadingHandler.blockBases at based
  split at based
  · rename_i srcTensor dstTensor srcFound dstFound
    obtain ⟨srcPtrs, srcComputed, based⟩ := bind_eq_ok.mp based
    obtain ⟨dstPtrs, dstComputed, done⟩ := bind_eq_ok.mp based
    cases done
    obtain ⟨inSrc, inDst⟩ := List.of_mem_zip inBases
    cases direction : handler.gpuToCpu with
    | true =>
        have placed := compute_sub_block_ptrs_mem dstComputed inDst
        simp only [SingleDirectionOffloadingHandler.dstTensors, direction, if_true] at dstFound
        simp only [SingleDirectionOffloadingHandler.dstBlocksPerChunk, direction,
          if_true] at placed
        exact ⟨dstTensor, dstFound, placed⟩
    | false =>
        have placed := compute_sub_block_ptrs_mem srcComputed inSrc
        simp only [SingleDirectionOffloadingHandler.srcTensors, direction, Bool.false_eq_true,
          if_false] at srcFound
        simp only [SingleDirectionOffloadingHandler.srcBlocksPerChunk, direction,
          Bool.false_eq_true, if_false] at placed
        exact ⟨srcTensor, srcFound, placed⟩
  · cases based

/-! ## Sizes -/

theorem spec_init_sizes {platform : Platform} {config : OffloadingConfig}
    {spec : CPUOffloadingSpec} (made : CPUOffloadingSpec.init platform config = .ok spec)
    (perRank : spec.replicatedLayout = false) (some : 0 < spec.numBlocks) :
    spec.config = config ∧ spec.platform = platform ∧ 0 < config.worldSize ∧
      config.worldSize * spec.cpuPageSizePerWorker ≤ spec.kvBytesPerChunk := by
  unfold CPUOffloadingSpec.init at made
  split at made
  · cases made
  · simp only at made
    split at made
    · rename_i positive
      cases made
      simp only at perRank
      refine ⟨rfl, rfl, positive.2, ?_⟩
      simp only [perRank, Bool.false_eq_true, if_false]
      rw [Nat.mul_div_cancel' (Dvd.dvd.mul_right (Nat.dvd_mul_left _ _) _)]
      exact platform.rounding.le_roundUp _ platform.alignment_pos
    · cases made
      cases some

theorem worker_init_handlers {caches : CanonicalKVCaches} {blocksPerChunk : Nat}
    {positive : 0 < blocksPerChunk} {zeros : Nat → Nat} {region : Option SharedOffloadRegion}
    {worker : CPUOffloadingWorker}
    (made : CPUOffloadingWorker.init caches blocksPerChunk positive zeros region = .ok worker) :
    ∃ pairs fit, (∀ carvedFrom, region = some carvedFrom →
        carveTensors blocksPerChunk caches.tensors carvedFrom = .ok pairs) ∧
      ∀ gpuToCpu, worker.handler gpuToCpu =
        newHandler caches blocksPerChunk positive pairs fit gpuToCpu := by
  cases region with
  | some region =>
      simp only [CPUOffloadingWorker.init] at made
      split at made
      · cases made
      · rename_i pairs carved
        obtain ⟨_, _, done⟩ := bind_eq_ok.mp made
        cases done
        refine ⟨pairs, carve_tensors_fit carved, ?_, ?_⟩
        · rintro _ ⟨⟩
          exact carved
        · intro gpuToCpu
          cases gpuToCpu <;> rfl
  | none =>
      simp only [CPUOffloadingWorker.init] at made
      split at made
      · cases made
      · rename_i pairs allocated
        obtain ⟨_, _, done⟩ := bind_eq_ok.mp made
        cases done
        refine ⟨pairs, allocate_tensors_fit allocated, ?_, ?_⟩
        · rintro _ ⟨⟩
        · intro gpuToCpu
          cases gpuToCpu <;> rfl

theorem create_worker_handlers {spec : CPUOffloadingSpec} {deviceIndex basePtr : Nat}
    {zeros : Nat → Nat} {caches : CanonicalKVCaches} {worker : CPUOffloadingWorker}
    (created : spec.createWorker deviceIndex basePtr zeros caches = .ok worker) :
    ∃ pairs fit, ∀ gpuToCpu, worker.handler gpuToCpu =
      newHandler caches spec.config.blocksPerChunk spec.config.blocks_pos pairs fit gpuToCpu := by
  unfold CPUOffloadingSpec.createWorker at created
  split at created
  · obtain ⟨_, _, created⟩ := bind_eq_ok.mp created
    obtain ⟨pairs, fit, _, handlers⟩ := worker_init_handlers created
    exact ⟨pairs, fit, handlers⟩
  · obtain ⟨pairs, fit, _, handlers⟩ := worker_init_handlers created
    exact ⟨pairs, fit, handlers⟩

/-- The workers of a region: their tensors are carved out of the cells of their rank. -/
theorem create_worker_carved {spec : CPUOffloadingSpec} {deviceIndex basePtr : Nat}
    {zeros : Nat → Nat} {caches : CanonicalKVCaches} {worker : CPUOffloadingWorker}
    (shared : spec.platform.usesSharedRegion = true) (perRank : spec.replicatedLayout = false)
    (some : 0 < spec.numBlocks)
    (created : spec.createWorker deviceIndex basePtr zeros caches = .ok worker) :
    ∃ region pairs, ∃ fit,
      region.basePtr = basePtr ∧ region.rowStride = spec.kvBytesPerChunk ∧
        region.workerOffset =
          deviceIndex % spec.config.worldSize * spec.cpuPageSizePerWorker ∧
        region.workerAreaEnd =
          (deviceIndex % spec.config.worldSize + 1) * spec.cpuPageSizePerWorker ∧
        carveTensors spec.config.blocksPerChunk caches.tensors region = .ok pairs ∧
        ∀ gpuToCpu, worker.handler gpuToCpu = newHandler caches spec.config.blocksPerChunk
          spec.config.blocks_pos pairs fit gpuToCpu := by
  unfold CPUOffloadingSpec.createWorker at created
  rw [if_pos ⟨shared, some⟩, perRank] at created
  obtain ⟨region, opened, created⟩ := bind_eq_ok.mp created
  obtain ⟨_, _, made⟩ := bind_eq_ok.mp opened
  obtain ⟨pairs, fit, carved, handlers⟩ := worker_init_handlers created
  cases made
  exact ⟨_, pairs, fit, rfl, rfl, rfl, rfl, carved _ rfl, handlers⟩

section Places

/-- The area of a tensor in the cell of a rank in the row of a block. -/
def areaSpan (spec : CPUOffloadingSpec) (tensors : List CanonicalKVCacheTensor)
    (rank block tensorIdx pageSizeBytes : Nat) : Span :=
  ⟨block * spec.kvBytesPerChunk + rank * spec.cpuPageSizePerWorker +
      carvedBytes (areaSizes spec.config.blocksPerChunk tensors) tensorIdx,
    pageSizeBytes * spec.config.blocksPerChunk⟩

/-- A span from the sub-block around it outwards. -/
structure Placed (spec : CPUOffloadingSpec) (tensors : List CanonicalKVCacheTensor)
    (rank block tensorIdx subBlock : Nat) (tensor : CanonicalKVCacheTensor) (span : Span) :
    Prop where
  found : tensors[tensorIdx]? = some tensor
  subBlock : span.Within (cell (areaSpan spec tensors rank block tensorIdx
    tensor.pageSizeBytes).start tensor.pageSizeBytes subBlock)
  area : span.Within (areaSpan spec tensors rank block tensorIdx tensor.pageSizeBytes)
  tier : InTier spec rank block span

variable {spec : CPUOffloadingSpec} {caches : CanonicalKVCaches} {worker : CPUOffloadingWorker}
  {deviceIndex basePtr : Nat} {zeros : Nat → Nat}

/-- Where a layer's bytes of a sub-block start. -/
def spanStart (spec : CPUOffloadingSpec) (tensors : List CanonicalKVCacheTensor)
    (rank block tensorIdx subBlock : Nat) (tensor : CanonicalKVCacheTensor) : Nat :=
  (areaSpan spec tensors rank block tensorIdx tensor.pageSizeBytes).start +
    subBlock * tensor.pageSizeBytes

theorem span_placed {tensors : List CanonicalKVCacheTensor}
    {rank block tensorIdx subBlock size : Nat} {tensor : CanonicalKVCacheTensor}
    (ranked : rank < spec.config.worldSize)
    (sizes : spec.config.worldSize * spec.cpuPageSizePerWorker ≤ spec.kvBytesPerChunk)
    (valid : block < spec.numBlocks) (within : subBlock < spec.config.blocksPerChunk)
    (found : tensors[tensorIdx]? = some tensor) (page : size ≤ tensor.pageSizeBytes)
    (room : carvedBytes (areaSizes spec.config.blocksPerChunk tensors) tensorIdx +
      tensor.pageSizeBytes * spec.config.blocksPerChunk ≤ spec.cpuPageSizePerWorker) :
    Placed spec tensors rank block tensorIdx subBlock tensor
      ⟨spanStart spec tensors rank block tensorIdx subBlock tensor, size⟩ := by
  have inSubBlock := Span.within_of_short
    (spanStart spec tensors rank block tensorIdx subBlock tensor) page
  have inArea := inSubBlock.trans (cell_within
    (areaSpan spec tensors rank block tensorIdx tensor.pageSizeBytes).start tensor.pageSizeBytes
    within (le_of_eq (Nat.mul_comm _ _)))
  have areaInSlot : (areaSpan spec tensors rank block tensorIdx tensor.pageSizeBytes).Within
      (cell (block * spec.kvBytesPerChunk) spec.cpuPageSizePerWorker rank) := by
    constructor
    · simp only [areaSpan, cell]
      omega
    · simp only [areaSpan, cell, Span.stop]
      omega
  have inSlot := inArea.trans areaInSlot
  have slotInRow := cell_within (block * spec.kvBytesPerChunk) spec.cpuPageSizePerWorker ranked
    sizes
  have rowStart : cell 0 spec.kvBytesPerChunk block =
      ⟨block * spec.kvBytesPerChunk, spec.kvBytesPerChunk⟩ := by
    rw [cell, Nat.zero_add]
  have inRow := rowStart ▸ inSlot.trans slotInRow
  have rowInRegion := cell_within 0 spec.kvBytesPerChunk valid le_rfl
  exact ⟨found, inSubBlock, inArea, inRow.trans rowInRegion, inRow, inSlot⟩

/-- The pointer of a sub-block is where the layout puts it. -/
theorem host_span_placed (shared : spec.platform.usesSharedRegion = true)
    (perRank : spec.replicatedLayout = false) (positive : 0 < spec.config.worldSize)
    (sizes : spec.config.worldSize * spec.cpuPageSizePerWorker ≤ spec.kvBytesPerChunk)
    (created : spec.createWorker deviceIndex basePtr zeros caches = .ok worker)
    {refs : List DataRef} {ref : DataRef} (known : refs ∈ caches.groupDataRefs)
    (member : ref ∈ refs) {block subBlock : Nat} (valid : block < spec.numBlocks)
    (within : subBlock < spec.config.blocksPerChunk) :
    ∃ view span tensor, worker.storeHandler.cpuTensors[ref.tensorIdx]? = some view ∧
      worker.hostSpan basePtr ref block subBlock = some span ∧
      view.pointer spec.config.blocksPerChunk (block, subBlock) = basePtr + span.start ∧
      span.size = ref.pageSizeBytes ∧
      Placed spec caches.tensors (deviceIndex % spec.config.worldSize) block ref.tensorIdx subBlock
        tensor span := by
  obtain ⟨region, pairs, fit, base, stride, offset, areaEnd, carved, handlers⟩ :=
    create_worker_carved shared perRank (Nat.zero_lt_of_lt valid) created
  obtain ⟨tensor, found, page⟩ := caches.refs_fit refs known ref member
  obtain ⟨inTensors, here⟩ := List.getElem?_eq_some_iff.mp found
  have inPairs : ref.tensorIdx < pairs.length := fit.length_eq ▸ inTensors
  have paired : pairs[ref.tensorIdx]? = some pairs[ref.tensorIdx] :=
    List.getElem?_eq_getElem inPairs
  have shape := (List.Forall₂.get fit inPairs inTensors).2
  rw [List.get_eq_getElem, List.get_eq_getElem, here] at shape
  have area := carve_tensors_areas carved paired
  generalize pairs[ref.tensorIdx] = pair at paired shape area
  have storing : worker.storeHandler = _ := handlers true
  have viewed : worker.storeHandler.cpuTensors[ref.tensorIdx]? = some pair.cpu := by
    rw [storing]
    simp [newHandler, paired]
  have perChunk : worker.storeHandler.blocksPerChunk = spec.config.blocksPerChunk := by
    rw [storing]
    rfl
  have pages : pair.cpu.rowBytes / spec.config.blocksPerChunk = tensor.pageSizeBytes := by
    rw [shape, Nat.mul_div_cancel _ spec.config.blocks_pos]
  have room := area.room
  rw [offset, areaEnd, shape, Nat.succ_mul] at room
  have pointer : pair.cpu.pointer spec.config.blocksPerChunk (block, subBlock) =
      basePtr + spanStart spec caches.tensors (deviceIndex % spec.config.worldSize) block
        ref.tensorIdx subBlock tensor := by
    simp only [Tensor.pointer, spanStart, areaSpan]
    rw [area.dataPtr, area.rowStride, pages, base, stride, offset]
    omega
  have placed := span_placed (Nat.mod_lt deviceIndex positive) sizes valid within found page
    (by omega)
  refine ⟨pair.cpu, _, tensor, viewed, ?_, pointer, rfl, placed⟩
  rw [CPUOffloadingWorker.hostSpan, viewed, perChunk, Option.map_some, pointer,
    Nat.add_sub_cancel_left]

/-- Two places differ at one level, and there the layout keeps them apart. -/
theorem placed_apart {tensors others : List CanonicalKVCacheTensor} {rank otherRank : Nat}
    {block otherBlock tensorIdx otherIdx subBlock otherSub : Nat}
    {tensor otherTensor : CanonicalKVCacheTensor} {span other : Span}
    (placed : Placed spec tensors rank block tensorIdx subBlock tensor span)
    (otherPlaced : Placed spec others otherRank otherBlock otherIdx otherSub otherTensor other)
    (worker : rank = otherRank → tensors = others)
    (differ : (rank, block, subBlock, tensorIdx) ≠ (otherRank, otherBlock, otherSub, otherIdx)) :
    span.Apart other := by
  by_cases rows : block = otherBlock
  · subst rows
    by_cases ranks : rank = otherRank
    · obtain rfl := worker ranks
      subst ranks
      by_cases same : tensorIdx = otherIdx
      · subst same
        have subs : subBlock ≠ otherSub := by
          rintro rfl
          exact differ rfl
        obtain rfl := Option.some.inj (placed.found.symm.trans otherPlaced.found)
        exact (cells_apart _ _ subs).within placed.subBlock otherPlaced.subBlock
      · exact (areas_apart _ (area_size placed.found) (area_size otherPlaced.found) same).within
          placed.area otherPlaced.area
    · exact (cells_apart _ _ ranks).within placed.tier.slot otherPlaced.tier.slot
  · exact (cells_apart _ _ rows).within placed.tier.row otherPlaced.tier.row

theorem handler_shares
    (created : spec.createWorker deviceIndex basePtr zeros caches = .ok worker)
    (gpuToCpu : Bool) :
    (worker.handler gpuToCpu).gpuToCpu = gpuToCpu ∧
      (worker.handler gpuToCpu).cpuTensors = worker.storeHandler.cpuTensors ∧
      (worker.handler gpuToCpu).blocksPerChunk = spec.config.blocksPerChunk := by
  obtain ⟨pairs, fit, handlers⟩ := create_worker_handlers created
  have storing : worker.storeHandler = _ := handlers true
  rw [handlers gpuToCpu, storing]
  exact ⟨rfl, rfl, rfl⟩

end Places

/-- Whatever the sizes, every host span of a direct descriptor is that of a sub-block of a
listed block, in the region, in the row of the block and in the cell of the rank; and
spans of different places share no byte. A region is mapped below the end of the address
space, so that the code's unsigned arithmetic on these pointers does not wrap. -/
theorem direct_host_spans {platform : Platform} {config : OffloadingConfig}
    {spec : CPUOffloadingSpec} (made : CPUOffloadingSpec.init platform config = .ok spec)
    (shared : platform.usesSharedRegion = true) (perRank : spec.replicatedLayout = false)
    {Worker : Type} (deviceIndex basePtr : Worker → Nat)
    (distinct : ∀ first second, first ≠ second →
      deviceIndex first % config.worldSize ≠ deviceIndex second % config.worldSize)
    (zeros : Worker → Nat → Nat) (caches : Worker → CanonicalKVCaches)
    (workers : Worker → CPUOffloadingWorker)
    (created : ∀ worker, spec.createWorker (deviceIndex worker) (basePtr worker) (zeros worker)
      (caches worker) = .ok (workers worker)) :
    (∀ worker gpuToCpu blocks ops, ∀ refs ∈ (caches worker).groupDataRefs, ∀ ref ∈ refs,
      (∀ block ∈ hostBlocks gpuToCpu blocks, block < spec.numBlocks) →
      ((workers worker).handler gpuToCpu).fillDirectOps blocks ref = .ok ops → ∀ op ∈ ops,
        ∃ block ∈ hostBlocks gpuToCpu blocks, ∃ subBlock < config.blocksPerChunk, ∃ span,
          (workers worker).hostSpan (basePtr worker) ref block subBlock = some span ∧
          hostPtr gpuToCpu op = basePtr worker + span.start ∧ op.size = span.size ∧
          InTier spec (deviceIndex worker % config.worldSize) block span) ∧
    (∀ first second, ∀ refs ∈ (caches first).groupDataRefs, ∀ ref ∈ refs,
      ∀ others ∈ (caches second).groupDataRefs, ∀ other ∈ others,
      ∀ block < spec.numBlocks, ∀ otherBlock < spec.numBlocks,
      ∀ subBlock < config.blocksPerChunk, ∀ otherSub < config.blocksPerChunk, ∀ span otherSpan,
        (workers first).hostSpan (basePtr first) ref block subBlock = some span →
        (workers second).hostSpan (basePtr second) other otherBlock otherSub = some otherSpan →
        (first, block, subBlock, ref.tensorIdx) ≠
          (second, otherBlock, otherSub, other.tensorIdx) →
        span.Apart otherSpan) := by
  constructor
  · intro worker gpuToCpu blocks ops refs known ref member valid filled op inOps
    obtain ⟨direction, tensors, perChunk⟩ := handler_shares (created worker) gpuToCpu
    obtain ⟨size, view, viewed, block, listed, subBlock, within, pointer⟩ :=
      fill_direct_ops_host filled inOps
    rw [direction] at listed pointer
    rw [tensors] at viewed
    rw [perChunk] at within pointer
    obtain ⟨rfl, rfl, positive, sizes⟩ :=
      spec_init_sizes made perRank (Nat.zero_lt_of_lt (valid block listed))
    obtain ⟨_, span, _, sameView, spanned, start, sized, placed⟩ := host_span_placed shared perRank
      positive sizes (created worker) known member (valid block listed) within
    obtain rfl := Option.some.inj (viewed.symm.trans sameView)
    exact ⟨block, listed, subBlock, within, span, spanned, pointer.trans start,
      size.trans sized.symm, placed.tier⟩
  · intro first second refs known ref member others otherKnown other otherMember block valid
      otherBlock otherValid subBlock within otherSub otherWithin span otherSpan spanned otherSpanned
      differ
    obtain ⟨rfl, rfl, positive, sizes⟩ :=
      spec_init_sizes made perRank (Nat.zero_lt_of_lt valid)
    obtain ⟨_, _, _, _, found, _, _, placed⟩ := host_span_placed shared perRank positive sizes
      (created first) known member valid within
    obtain ⟨_, _, _, _, otherFound, _, _, otherPlaced⟩ := host_span_placed shared perRank positive
      sizes (created second) otherKnown otherMember otherValid otherWithin
    obtain rfl := Option.some.inj (spanned.symm.trans found)
    obtain rfl := Option.some.inj (otherSpanned.symm.trans otherFound)
    have sameWorker : deviceIndex first % spec.config.worldSize =
        deviceIndex second % spec.config.worldSize → first = second := by
      intro ranks
      by_contra apart
      exact distinct first second apart ranks
    apply placed_apart placed otherPlaced
    · intro ranks
      rw [sameWorker ranks]
    · intro same
      simp only [Prod.mk.injEq] at same
      apply differ
      rw [sameWorker same.1, same.2.1, same.2.2.1, same.2.2.2]

def pagePlatform : Platform where
  usesSharedRegion := true
  pageSize := 4096
  blockSizeAlignment := 4096
  rounding := ⟨fun value multiple => cdiv value multiple * multiple, fun value _ positive =>
    (le_mul_cdiv value positive).trans (le_of_eq (Nat.mul_comm _ _))⟩
  alignment_pos := by decide

/-- Two workers of 1000 bytes a block and two blocks a chunk: 96 bytes of a row are padding. -/
def paddedConfig : OffloadingConfig := ⟨1000, 2, false, 2, 20000, Nat.two_pos⟩

def paddedSpec : CPUOffloadingSpec := ⟨paddedConfig, pagePlatform, false, 4, 4096, 2000⟩

def paddedCaches : CanonicalKVCaches where
  tensors := [⟨0, 400⟩, ⟨8000, 600⟩]
  groupDataRefs := [[⟨1, 500, [], 1, 0⟩]]
  refs_fit := by
    intro refs known ref member
    obtain rfl := List.mem_singleton.mp known
    obtain rfl := List.mem_singleton.mp member
    exact ⟨⟨8000, 600⟩, rfl, by decide⟩

def paddedRef : DataRef := ⟨1, 500, [], 1, 0⟩

/-- A store of two blocks into the chunk of the last row. -/
def paddedBlocks : SingleDirectionOffloadingHandler.GroupBlocks := ⟨[7, 9], [3], 2, 0, 0⟩

/-- Where a worker keeps the second sub-block of the last row, and what it copies there. -/
def paddedView (worker : CPUOffloadingWorker) : Option (Nat × Nat) × Except PyError (List CopyOp) :=
  ((worker.hostSpan 65536 paddedRef 3 1).map fun span => (span.start, span.size),
    (worker.handler true).fillDirectOps paddedBlocks paddedRef)

/-- The cell of the second worker starts 2000 bytes behind that of the first. -/
theorem padded_spans_apart : ∃ (workers : Bool → CPUOffloadingWorker) (span : Span),
    paddedView (workers false) =
      (some (13688, 500), .ok [⟨12200, 78624, 500⟩, ⟨13400, 79224, 500⟩]) ∧
    paddedView (workers true) =
      (some (15688, 500), .ok [⟨12200, 80624, 500⟩, ⟨13400, 81224, 500⟩]) ∧
    Span.Apart ⟨13688, 500⟩ ⟨15688, 500⟩ ∧
    81224 = 65536 + span.start ∧ InTier paddedSpec 1 3 span := by
  have viewed : ∀ worker : Bool, ∃ made,
      paddedSpec.createWorker worker.toNat 65536 (fun _ => 0) paddedCaches = .ok made ∧
      paddedView made = (some (13688 + worker.toNat * 2000, 500),
        .ok [⟨12200, 78624 + worker.toNat * 2000, 500⟩,
          ⟨13400, 79224 + worker.toNat * 2000, 500⟩]) := by
    intro worker
    apply map_eq_ok.mp
    cases worker with
    | false => rfl
    | true => rfl
  choose workers created views using viewed
  have made : CPUOffloadingSpec.init pagePlatform paddedConfig = .ok paddedSpec := rfl
  obtain ⟨placed, apart⟩ := direct_host_spans made rfl rfl Bool.toNat (fun _ => 65536) (by decide)
    (fun _ _ => 0) (fun _ => paddedCaches) workers created
  have spans : ∀ worker, (workers worker).hostSpan 65536 paddedRef 3 1 =
      some ⟨13688 + worker.toNat * 2000, 500⟩ := by
    intro worker
    obtain ⟨span, found, same⟩ := Option.map_eq_some_iff.mp (Prod.mk.inj (views worker)).1
    cases span
    simp only [Prod.mk.injEq] at same
    rw [found, same.1, same.2]
  obtain ⟨block, listed, subBlock, _, span, _, pointer, _, tier⟩ := placed true true paddedBlocks _
    _ List.mem_cons_self paddedRef List.mem_cons_self (by decide) (Prod.mk.inj (views true)).2
    ⟨13400, 81224, 500⟩ (List.mem_cons_of_mem _ List.mem_cons_self)
  obtain rfl : block = 3 := List.mem_singleton.mp listed
  refine ⟨workers, span, views false, views true, ?_, pointer, tier⟩
  exact apart false true _ List.mem_cons_self paddedRef List.mem_cons_self _ List.mem_cons_self
    paddedRef List.mem_cons_self 3 (by decide) 3 (by decide) 1 (by decide) 1 (by decide) _ _
    (spans false) (spans true) (by decide)

end KvOffload.TierLayout
