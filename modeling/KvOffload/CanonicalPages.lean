import KvOffload.TierLayout

/-!
# Pages in the canonical layout

In the canonical layout the CPU tensors of a region are shared by all ranks: a mapping
says which bytes of the canonical page the local page of a rank is, run by run, and ranks
with the same bytes take turns writing them.
-/

namespace KvOffload.CanonicalPages

open KvOffload KvOffload.Base KvOffload.ByteSpans KvOffload.GpuTransfer KvOffload.TierLayout

set_option autoImplicit false

/-- A strided correspondence of the bytes of a local and a canonical page. -/
structure CopyRun where
  localOffset : Nat
  canonicalOffset : Nat
  fragmentSize : Nat
  numFragments : Nat
  localStride : Nat
  canonicalStride : Nat

structure CanonicalPageMapping where
  canonicalPageSizeBytes : Nat
  localPageSizeBytes : Nat
  runs : List CopyRun
  numWriters : Nat
  writerIndex : Nat

/-- A layer of a group. The constructors assert that it has a mapping. -/
structure CanonicalKVCacheRef where
  tensorIdx : Nat
  pageSizeBytes : Nat
  mapping : CanonicalPageMapping

/-- One fragment of a run, at its place in both pages. -/
structure PageFragment where
  localOffset : Nat
  canonicalOffset : Nat
  size : Nat

def CopyRun.fragments (run : CopyRun) : List PageFragment :=
  (List.range run.numFragments).map fun index =>
    ⟨run.localOffset + index * run.localStride, run.canonicalOffset + index * run.canonicalStride,
      run.fragmentSize⟩

namespace CanonicalPageMapping

variable (mapping : CanonicalPageMapping)

def fragments : List PageFragment := mapping.runs.flatMap CopyRun.fragments

/-- A byte of the local page is a byte of the canonical page. -/
def Maps (localByte canonicalByte : Nat) : Prop :=
  ∃ fragment ∈ mapping.fragments, ∃ place < fragment.size,
    localByte = fragment.localOffset + place ∧ canonicalByte = fragment.canonicalOffset + place

def isWriter (blockId : Nat) : Bool := blockId % mapping.numWriters = mapping.writerIndex

end CanonicalPageMapping

/-- `_build_copy_plan`: the fragments in the direction of the transfer. -/
def buildCopyPlan (ref : CanonicalKVCacheRef) (gpuToCpu : Bool) : List Fragment :=
  ref.mapping.fragments.map fun fragment =>
    if gpuToCpu then ⟨fragment.localOffset, fragment.canonicalOffset, fragment.size⟩
    else ⟨fragment.canonicalOffset, fragment.localOffset, fragment.size⟩

/-- A layer as the handler of one direction keeps it. -/
def CanonicalKVCacheRef.toDataRef (gpuToCpu : Bool) (ref : CanonicalKVCacheRef) : DataRef where
  tensorIdx := ref.tensorIdx
  pageSizeBytes := ref.pageSizeBytes
  fragments := buildCopyPlan ref gpuToCpu
  numWriters := ref.mapping.numWriters
  writerIndex := ref.mapping.writerIndex

structure CanonicalCaches where
  tensors : List CanonicalKVCacheTensor
  groupDataRefs : List (List CanonicalKVCacheRef)

def raiseSizes : List CanonicalKVCacheRef → List Nat → Except PyError (List Nat)
  | [], sizes => .ok sizes
  | ref :: rest, sizes =>
      match sizes[ref.tensorIdx]? with
      | none => .error .indexError
      | some size => raiseSizes rest
          (sizes.set ref.tensorIdx (max size ref.mapping.canonicalPageSizeBytes))

/-- `_canonical_block_sizes`: the canonical bytes of a GPU block, by tensor. -/
def canonicalBlockSizes (caches : CanonicalCaches) : Except PyError (List Nat) := do
  let sizes ← raiseSizes caches.groupDataRefs.flatten (List.replicate caches.tensors.length 0)
  pyAssert (∀ size ∈ sizes, 0 < size)
  .ok sizes

/-- The area of the next tensor, shared by all ranks, and where the one after it starts. -/
def createNextCanonicalView (region : SharedOffloadRegion)
    (canonicalOffset tensorPageSize : Nat) : Except PyError (Tensor × Nat) := do
  let newOffset := canonicalOffset + tensorPageSize
  pyAssert (newOffset ≤ region.rowStride)
  .ok (⟨region.basePtr + canonicalOffset, region.rowStride, tensorPageSize⟩, newOffset)

def carveCanonical (blocksPerChunk : Nat) (region : SharedOffloadRegion) :
    List (CanonicalKVCacheTensor × Nat) → Nat → Except PyError (List TensorPair)
  | [], _ => .ok []
  | (tensor, size) :: rest, canonicalOffset =>
      if tensor.pageSizeBytes = 0 then .error .runtimeError
      else do
        let (cpuTensor, newOffset) ←
          createNextCanonicalView region canonicalOffset (size * blocksPerChunk)
        let pairs ← carveCanonical blocksPerChunk region rest newOffset
        .ok (⟨⟨tensor.dataPtr, tensor.pageSizeBytes, tensor.pageSizeBytes⟩, cpuTensor⟩ :: pairs)

section Sizes

theorem raise_sizes_ok {refs : List CanonicalKVCacheRef} {sizes raised : List Nat}
    (raises : raiseSizes refs sizes = .ok raised) :
    raised.length = sizes.length ∧
      (∀ index size : Nat, sizes[index]? = some size →
        ∃ larger, raised[index]? = some larger ∧ size ≤ larger) ∧
      ∀ ref ∈ refs, ∃ size, raised[ref.tensorIdx]? = some size ∧
        ref.mapping.canonicalPageSizeBytes ≤ size := by
  induction refs generalizing sizes with
  | nil =>
      cases raises
      exact ⟨rfl, fun _ size found => ⟨size, found, le_rfl⟩, fun _ member => by cases member⟩
  | cons ref rest ih =>
      unfold raiseSizes at raises
      split at raises
      · cases raises
      · rename_i known found
        obtain ⟨length, grown, covered⟩ := ih raises
        have within := (List.getElem?_eq_some_iff.mp found).1
        refine ⟨length.trans (List.length_set ..), ?_, ?_⟩
        · intro index size stored
          by_cases here : ref.tensorIdx = index
          · subst here
            obtain ⟨larger, kept, le⟩ := grown ref.tensorIdx _ (List.getElem?_set_self within)
            obtain rfl := Option.some.inj (found.symm.trans stored)
            exact ⟨larger, kept, (le_max_left _ _).trans le⟩
          · apply grown
            rw [List.getElem?_set_ne here]
            exact stored
        · intro other member
          rcases List.mem_cons.mp member with rfl | later
          · obtain ⟨larger, kept, le⟩ := grown other.tensorIdx _ (List.getElem?_set_self within)
            exact ⟨larger, kept, (le_max_right _ _).trans le⟩
          · exact covered other later

/-- Every layer's canonical page fits the size of its tensor. -/
theorem canonical_block_sizes_ok {caches : CanonicalCaches} {sizes : List Nat}
    (sized : canonicalBlockSizes caches = .ok sizes) :
    sizes.length = caches.tensors.length ∧
      ∀ refs ∈ caches.groupDataRefs, ∀ ref ∈ refs, ∃ size,
        sizes[ref.tensorIdx]? = some size ∧ ref.mapping.canonicalPageSizeBytes ≤ size := by
  obtain ⟨raised, raises, checked⟩ := bind_eq_ok.mp sized
  obtain ⟨_, _, done⟩ := bind_eq_ok.mp checked
  cases done
  obtain ⟨length, _, covered⟩ := raise_sizes_ok raises
  refine ⟨length.trans List.length_replicate, ?_⟩
  intro refs known ref member
  exact covered ref (List.mem_flatten.mpr ⟨refs, known, member⟩)

end Sizes

section Views

/-- The two tensors of a canonical tensor, laid out in a region. -/
structure CanonicalPair (region : SharedOffloadRegion) (blocksPerChunk canonicalOffset : Nat)
    (sizes : List Nat) (tensorIdx : Nat) (tensor : CanonicalKVCacheTensor) (size : Nat)
    (pair : TensorPair) : Prop where
  gpu : pair.gpu = ⟨tensor.dataPtr, tensor.pageSizeBytes, tensor.pageSizeBytes⟩
  cpu : pair.cpu = ⟨region.basePtr + (canonicalOffset + carvedBytes
    (sizes.map fun size => size * blocksPerChunk) tensorIdx), region.rowStride,
      size * blocksPerChunk⟩
  room : canonicalOffset + carvedBytes (sizes.map fun size => size * blocksPerChunk) tensorIdx +
    size * blocksPerChunk ≤ region.rowStride

theorem carve_canonical_pairs {blocksPerChunk : Nat} {region : SharedOffloadRegion}
    {tensors : List (CanonicalKVCacheTensor × Nat)} {canonicalOffset : Nat}
    {pairs : List TensorPair}
    (carved : carveCanonical blocksPerChunk region tensors canonicalOffset = .ok pairs) :
    pairs.length = tensors.length ∧
      ∀ tensorIdx tensor size, tensors[tensorIdx]? = some (tensor, size) →
        ∃ pair, pairs[tensorIdx]? = some pair ∧
          CanonicalPair region blocksPerChunk canonicalOffset (tensors.map Prod.snd) tensorIdx
            tensor size pair := by
  induction tensors generalizing canonicalOffset pairs with
  | nil =>
      cases carved
      exact ⟨rfl, fun _ _ _ found => by cases found⟩
  | cons head rest ih =>
      obtain ⟨first, firstSize⟩ := head
      unfold carveCanonical at carved
      split at carved
      · cases carved
      · obtain ⟨⟨cpuTensor, newOffset⟩, viewed, carved⟩ := bind_eq_ok.mp carved
        obtain ⟨others, later, done⟩ := bind_eq_ok.mp carved
        obtain ⟨_, room, made⟩ := bind_eq_ok.mp viewed
        have room := py_assert_eq_ok.mp room
        cases made
        cases done
        obtain ⟨length, placed⟩ := ih later
        refine ⟨congrArg Nat.succ length, ?_⟩
        intro tensorIdx tensor size found
        cases tensorIdx with
        | zero =>
            cases found
            exact ⟨_, rfl, ⟨rfl, rfl, room⟩⟩
        | succ previous =>
            obtain ⟨pair, here, layout⟩ := placed previous tensor size found
            have moved := carved_bytes_cons (firstSize * blocksPerChunk)
              ((rest.map Prod.snd).map fun size => size * blocksPerChunk) previous
            have cpu := layout.cpu
            have ends := layout.room
            refine ⟨pair, here, layout.gpu, ?_, ?_⟩
            · rw [cpu, List.map_cons, List.map_cons, moved, Nat.add_assoc canonicalOffset]
            · rw [List.map_cons, List.map_cons, moved, ← Nat.add_assoc canonicalOffset]
              exact ends

end Views

section Workers

/-- The handler of one direction in the canonical layout. -/
def canonicalHandler (caches : CanonicalCaches) (blocksPerChunk : Nat)
    (positive : 0 < blocksPerChunk) (pairs : List TensorPair)
    (paired : ∀ refs ∈ caches.groupDataRefs, ∀ ref ∈ refs, ∃ pair,
      pairs[ref.tensorIdx]? = some pair ∧ blocksPerChunk ∣ pair.cpu.rowBytes)
    (gpuToCpu : Bool) : SingleDirectionOffloadingHandler where
  gpuTensors := pairs.map TensorPair.gpu
  cpuTensors := pairs.map TensorPair.cpu
  gpuToCpu := gpuToCpu
  blocksPerChunk := blocksPerChunk
  layerRefsPerGroup := caches.groupDataRefs.map fun refs =>
    refs.map (CanonicalKVCacheRef.toDataRef gpuToCpu)
  canonicalLayout := true
  blocks_pos := positive
  tensors := by
    intro dataRefs known dataRef member
    obtain ⟨refs, canonical, rfl⟩ := List.mem_map.mp known
    obtain ⟨ref, listed, rfl⟩ := List.mem_map.mp member
    obtain ⟨pair, found, rows⟩ := paired refs canonical ref listed
    refine ⟨pair.gpu, pair.cpu, ?_, ?_, rows⟩
    · simp [CanonicalKVCacheRef.toDataRef, found]
    · simp [CanonicalKVCacheRef.toDataRef, found]

theorem pairs_of_sizes {caches : CanonicalCaches} {sizes : List Nat} {blocksPerChunk : Nat}
    {region : SharedOffloadRegion} {pairs : List TensorPair}
    (sized : canonicalBlockSizes caches = .ok sizes)
    (carved : carveCanonical blocksPerChunk region (caches.tensors.zip sizes) 0 = .ok pairs) :
    ∀ refs ∈ caches.groupDataRefs, ∀ ref ∈ refs, ∃ tensor size pair,
      caches.tensors[ref.tensorIdx]? = some tensor ∧ sizes[ref.tensorIdx]? = some size ∧
        ref.mapping.canonicalPageSizeBytes ≤ size ∧ pairs[ref.tensorIdx]? = some pair ∧
        CanonicalPair region blocksPerChunk 0 sizes ref.tensorIdx tensor size pair := by
  intro refs known ref member
  obtain ⟨length, covered⟩ := canonical_block_sizes_ok sized
  obtain ⟨size, found, fits⟩ := covered refs known ref member
  have within := (List.getElem?_eq_some_iff.mp found).1
  have inTensors : ref.tensorIdx < caches.tensors.length := length ▸ within
  have tensorFound : caches.tensors[ref.tensorIdx]? = some caches.tensors[ref.tensorIdx] :=
    List.getElem?_eq_getElem inTensors
  obtain ⟨_, placed⟩ := carve_canonical_pairs carved
  obtain ⟨pair, here, layout⟩ := placed ref.tensorIdx _ size
    (List.getElem?_zip_eq_some.mpr ⟨tensorFound, found⟩)
  rw [List.map_snd_zip (le_of_eq length)] at layout
  exact ⟨_, size, pair, tensorFound, found, fits, here, layout⟩

/-- `CPUOffloadingWorker.__init__` with the canonical layout. -/
def newCanonicalWorker (caches : CanonicalCaches) (blocksPerChunk : Nat)
    (positive : 0 < blocksPerChunk) (region : SharedOffloadRegion) :
    Except PyError CPUOffloadingWorker :=
  match sized : canonicalBlockSizes caches with
  | .error problem => .error problem
  | .ok sizes =>
      match carved : carveCanonical blocksPerChunk region (caches.tensors.zip sizes) 0 with
      | .error problem => .error problem
      | .ok pairs => do
          pyAssert (pairs ≠ [])
          let handler := canonicalHandler caches blocksPerChunk positive pairs (by
            intro refs known ref member
            obtain ⟨_, size, pair, _, _, _, found, layout⟩ :=
              pairs_of_sizes sized carved refs known ref member
            refine ⟨pair, found, ?_⟩
            rw [layout.cpu]
            exact Nat.dvd_mul_left _ size)
          .ok ⟨some region, handler true, handler false⟩

/-- What a worker in the canonical layout is: both handlers over one list of pairs. -/
structure CanonicalWorker (caches : CanonicalCaches) (blocksPerChunk : Nat)
    (region : SharedOffloadRegion) (sizes : List Nat) (pairs : List TensorPair)
    (worker : CPUOffloadingWorker) : Prop where
  sized : canonicalBlockSizes caches = .ok sizes
  carved : carveCanonical blocksPerChunk region (caches.tensors.zip sizes) 0 = .ok pairs
  gpuTensors : ∀ gpuToCpu, (worker.handler gpuToCpu).gpuTensors = pairs.map TensorPair.gpu
  cpuTensors : ∀ gpuToCpu, (worker.handler gpuToCpu).cpuTensors = pairs.map TensorPair.cpu
  direction : ∀ gpuToCpu, (worker.handler gpuToCpu).gpuToCpu = gpuToCpu
  perChunk : ∀ gpuToCpu, (worker.handler gpuToCpu).blocksPerChunk = blocksPerChunk
  canonical : ∀ gpuToCpu, (worker.handler gpuToCpu).canonicalLayout = true
  refs : ∀ gpuToCpu, (worker.handler gpuToCpu).layerRefsPerGroup =
    caches.groupDataRefs.map fun refs => refs.map (CanonicalKVCacheRef.toDataRef gpuToCpu)

theorem new_canonical_worker_ok {caches : CanonicalCaches} {blocksPerChunk : Nat}
    {positive : 0 < blocksPerChunk} {region : SharedOffloadRegion} {worker : CPUOffloadingWorker}
    (made : newCanonicalWorker caches blocksPerChunk positive region = .ok worker) :
    ∃ sizes pairs, CanonicalWorker caches blocksPerChunk region sizes pairs worker := by
  unfold newCanonicalWorker at made
  split at made
  · cases made
  · rename_i sizes sized
    split at made
    · cases made
    · rename_i pairs carved
      obtain ⟨_, _, done⟩ := bind_eq_ok.mp made
      cases done
      refine ⟨sizes, pairs, sized, carved, ?_, ?_, ?_, ?_, ?_, ?_⟩ <;>
        · intro gpuToCpu
          cases gpuToCpu <;> rfl

end Workers

end KvOffload.CanonicalPages
