import KvOffload.ByteCopies
import KvOffload.CanonicalPages
import KvOffload.TransferSplit

/-!
# Round trips in the canonical layout

All ranks submit one store, and every canonical byte is written by one of them. A later
load on any rank brings back the bytes of that rank's own pages.
-/

namespace KvOffload.CanonicalRoundTrip

open KvOffload KvOffload.Base KvOffload.ByteSpans KvOffload.ByteCopies KvOffload.GpuTransfer
open KvOffload.GpuTransfer.SingleDirectionOffloadingHandler KvOffload.TierLayout
open KvOffload.CanonicalPages KvOffload.TransferSplit

set_option autoImplicit false

/-- A sub-block of a CPU block and the GPU block it is copied from or to. -/
structure PageCopy where
  cpuBlock : Nat
  subBlock : Nat
  gpuBlock : Nat
  deriving DecidableEq

def PageCopy.place (page : PageCopy) : Nat × Nat := (page.cpuBlock, page.subBlock)

/-- The page number that all ranks agree on. -/
def PageCopy.pageId (page : PageCopy) (blocksPerChunk : Nat) : Nat :=
  page.cpuBlock * blocksPerChunk + page.subBlock

/-- The page with a number in a group, past the skipped sub-blocks. -/
def pageAt (gpuToCpu : Bool) (blocksPerChunk : Nat) (blocks : GroupBlocks) (index : Nat) :
    PageCopy :=
  if gpuToCpu then
    let place := slot blocksPerChunk blocks.dst (blocks.dstSkipCount + index)
    ⟨place.1, place.2, blocks.src.getD (blocks.srcSkipCount + index) 0⟩
  else
    let place := slot blocksPerChunk blocks.src (blocks.srcSkipCount + index)
    ⟨place.1, place.2, blocks.dst.getD (blocks.dstSkipCount + index) 0⟩

def pageCopies (gpuToCpu : Bool) (blocksPerChunk : Nat) (blocks : GroupBlocks) : List PageCopy :=
  (List.range blocks.groupSize).map (pageAt gpuToCpu blocksPerChunk blocks)

/-- The pages of a group of a submitted transfer. -/
def groupPages (gpuToCpu : Bool) (blocksPerChunk : Nat) (gpuSpec : GPULoadStoreSpec)
    (cpuBlockIds : List Nat) (group : Nat) : List PageCopy :=
  ((transferBlocks gpuToCpu blocksPerChunk gpuSpec cpuBlockIds)[group]?.map
    (pageCopies gpuToCpu blocksPerChunk)).getD []

/-- A byte of a canonical page of a sub-block, counted from the start of the region. -/
def canonicalByte (sizes : List Nat) (blocksPerChunk rowStride tensorIdx : Nat)
    (place : Nat × Nat) (byte : Nat) : Nat :=
  place.1 * rowStride + (carvedBytes (sizes.map fun size => size * blocksPerChunk) tensorIdx +
    (place.2 * sizes.getD tensorIdx 0 + byte))

/-- The address of a byte of a page of a GPU block. -/
def gpuByte (tensors : List CanonicalKVCacheTensor) (tensorIdx gpuBlock byte : Nat) : Nat :=
  (tensors[tensorIdx]?.map fun tensor =>
    tensor.dataPtr + gpuBlock * tensor.pageSizeBytes).getD 0 + byte

def groupRefs (caches : CanonicalCaches) (group : Nat) : List CanonicalKVCacheRef :=
  caches.groupDataRefs[group]?.getD []

/-- The bytes that a list of descriptors moves. -/
def MovedBytes (ops : List CopyOp) (origin target : Nat) : Prop :=
  ∃ op ∈ ops, ∃ place < op.size, origin = op.src + place ∧ target = op.dst + place

section Submitted

variable {caches : CanonicalCaches} {blocksPerChunk : Nat} {region : SharedOffloadRegion}
  {sizes : List Nat} {pairs : List TensorPair} {worker : CPUOffloadingWorker}

/-- Whether the rank copies the page: every rank loads, the writers take turns storing. -/
def CopiesPage (gpuToCpu : Bool) (blocksPerChunk : Nat) (ref : CanonicalKVCacheRef)
    (page : PageCopy) : Prop :=
  gpuToCpu = true → 1 < ref.mapping.numWriters →
    ref.mapping.isWriter (page.pageId blocksPerChunk) = true

theorem slot_one (blocks : List Nat) (index : Nat) : slot 1 blocks index = (blocks.getD index 0, 0) := by
  simp [slot, Nat.mod_one]

/-- The copy with a number in a group. -/
def copyAt (handler : SingleDirectionOffloadingHandler) (blocks : GroupBlocks) (index : Nat) :
    Copy :=
  (slot handler.srcBlocksPerChunk blocks.src (blocks.srcSkipCount + index),
    slot handler.dstBlocksPerChunk blocks.dst (blocks.dstSkipCount + index))

/-- The base pointers of a page: of its GPU block and of its canonical page. -/
theorem ref_pointers (made : CanonicalWorker caches blocksPerChunk region sizes pairs worker)
    (positive : 0 < blocksPerChunk) {refs : List CanonicalKVCacheRef} {ref : CanonicalKVCacheRef}
    (known : refs ∈ caches.groupDataRefs) (member : ref ∈ refs) (gpuToCpu : Bool)
    (blocks : GroupBlocks) (index : Nat) :
    let page := pageAt gpuToCpu blocksPerChunk blocks index
    let gpu := gpuByte caches.tensors ref.tensorIdx page.gpuBlock 0
    let cpu := region.basePtr +
      canonicalByte sizes blocksPerChunk region.rowStride ref.tensorIdx page.place 0
    (worker.handler gpuToCpu).pointers (ref.toDataRef gpuToCpu)
        (copyAt (worker.handler gpuToCpu) blocks index) =
      if gpuToCpu then (gpu, cpu) else (cpu, gpu) := by
  obtain ⟨tensor, size, pair, tensorFound, sizeFound, _, found, layout⟩ :=
    pairs_of_sizes made.sized made.carved refs known ref member
  have gpuTensors := made.gpuTensors gpuToCpu
  have cpuTensors := made.cpuTensors gpuToCpu
  have direction := made.direction gpuToCpu
  have perChunk := made.perChunk gpuToCpu
  have gpuFound : (pairs.map TensorPair.gpu)[ref.tensorIdx]? = some pair.gpu := by
    rw [List.getElem?_map, found, Option.map_some]
  have cpuFound : (pairs.map TensorPair.cpu)[ref.tensorIdx]? = some pair.cpu := by
    rw [List.getElem?_map, found, Option.map_some]
  have gpuPointer : ∀ block, pair.gpu.pointer 1 (block, 0) =
      gpuByte caches.tensors ref.tensorIdx block 0 := by
    intro block
    simp [Tensor.pointer, gpuByte, layout.gpu, tensorFound]
  have cpuPointer : ∀ place, pair.cpu.pointer blocksPerChunk place = region.basePtr +
      canonicalByte sizes blocksPerChunk region.rowStride ref.tensorIdx place 0 := by
    intro place
    simp only [Tensor.pointer, canonicalByte, layout.cpu, List.getD_eq_getElem?_getD, sizeFound,
      Option.getD_some, Nat.mul_div_cancel _ positive]
    omega
  cases gpuToCpu with
  | true =>
      simp only [pointers, copyAt, pageAt, PageCopy.place, srcTensors, dstTensors,
        srcBlocksPerChunk, dstBlocksPerChunk, direction, perChunk, gpuTensors, cpuTensors, if_true,
        CanonicalKVCacheRef.toDataRef, gpuFound, cpuFound, Option.map_some, Option.getD_some,
        slot_one, gpuPointer, cpuPointer]
  | false =>
      simp only [pointers, copyAt, pageAt, PageCopy.place, srcTensors, dstTensors,
        srcBlocksPerChunk, dstBlocksPerChunk, direction, perChunk, gpuTensors, cpuTensors,
        Bool.false_eq_true, if_false, CanonicalKVCacheRef.toDataRef, gpuFound, cpuFound,
        Option.map_some, Option.getD_some, slot_one, gpuPointer, cpuPointer]

theorem ref_writes (made : CanonicalWorker caches blocksPerChunk region sizes pairs worker)
    (ref : CanonicalKVCacheRef) (gpuToCpu : Bool) (blocks : GroupBlocks) (index : Nat) :
    (worker.handler gpuToCpu).writes (ref.toDataRef gpuToCpu)
        (copyAt (worker.handler gpuToCpu) blocks index) = true ↔
      CopiesPage gpuToCpu blocksPerChunk ref (pageAt gpuToCpu blocksPerChunk blocks index) := by
  have direction := made.direction gpuToCpu
  have perChunk := made.perChunk gpuToCpu
  cases gpuToCpu with
  | true =>
      have turn : ((copyAt (worker.handler true) blocks index).2.1 *
          (worker.handler true).dstBlocksPerChunk +
            (copyAt (worker.handler true) blocks index).2.2) =
          (pageAt true blocksPerChunk blocks index).pageId blocksPerChunk := by
        simp [copyAt, pageAt, PageCopy.pageId, dstBlocksPerChunk, direction, perChunk]
      rw [writes, direction, turn]
      by_cases several : 1 < ref.mapping.numWriters
      · simp only [CopiesPage, CanonicalKVCacheRef.toDataRef, CanonicalPageMapping.isWriter, several,
          decide_true, Bool.and_self, Bool.not_true, Bool.false_or, forall_const]
        constructor
        · exact fun writing => decide_eq_true (of_decide_eq_true writing)
        · exact fun writing => decide_eq_true (of_decide_eq_true writing)
      · simp [CopiesPage, CanonicalKVCacheRef.toDataRef, several]
  | false => simp [writes, CopiesPage, direction]

/-- A byte of a page of a layer, on the GPU and in the region. -/
def MovesPage (caches : CanonicalCaches) (sizes : List Nat) (blocksPerChunk : Nat)
    (region : SharedOffloadRegion) (gpuToCpu : Bool) (ref : CanonicalKVCacheRef)
    (page : PageCopy) (origin target : Nat) : Prop :=
  CopiesPage gpuToCpu blocksPerChunk ref page ∧ ∃ localByte byte,
    ref.mapping.Maps localByte byte ∧
      let gpu := gpuByte caches.tensors ref.tensorIdx page.gpuBlock localByte
      let cpu := region.basePtr +
        canonicalByte sizes blocksPerChunk region.rowStride ref.tensorIdx page.place byte
      (origin, target) = if gpuToCpu then (gpu, cpu) else (cpu, gpu)

theorem layer_moves (made : CanonicalWorker caches blocksPerChunk region sizes pairs worker)
    (positive : 0 < blocksPerChunk) {refs : List CanonicalKVCacheRef} {ref : CanonicalKVCacheRef}
    (known : refs ∈ caches.groupDataRefs) (member : ref ∈ refs) (gpuToCpu : Bool)
    (blocks : GroupBlocks) (origin target : Nat) :
    MovedBytes ((worker.handler gpuToCpu).layerOps ((worker.handler gpuToCpu).copies blocks)
        (ref.toDataRef gpuToCpu)) origin target ↔
      ∃ page ∈ pageCopies gpuToCpu blocksPerChunk blocks,
        MovesPage caches sizes blocksPerChunk region gpuToCpu ref page origin target := by
  have shift : ∀ block byte, gpuByte caches.tensors ref.tensorIdx block byte =
      gpuByte caches.tensors ref.tensorIdx block 0 + byte := by
    intro block byte
    simp [gpuByte]
  have shiftCpu : ∀ place byte,
      canonicalByte sizes blocksPerChunk region.rowStride ref.tensorIdx place byte =
        canonicalByte sizes blocksPerChunk region.rowStride ref.tensorIdx place 0 + byte := by
    intro place byte
    simp only [canonicalByte]
    omega
  have copies : (worker.handler gpuToCpu).copies blocks =
      (List.range blocks.groupSize).map (copyAt (worker.handler gpuToCpu) blocks) := rfl
  have base := ref_pointers made positive known member gpuToCpu blocks
  simp only [MovedBytes, layerOps, made.canonical, if_true, List.mem_flatMap, List.mem_map,
    copies, pageCopies, MovesPage]
  constructor
  · rintro ⟨op, ⟨copy, kept, fragment, planned, rfl⟩, place, within, rfl, rfl⟩
    rw [List.mem_filter, List.mem_map] at kept
    obtain ⟨⟨index, inRange, rfl⟩, writing⟩ := kept
    obtain ⟨original, inRuns, rfl⟩ := List.mem_map.mp planned
    refine ⟨_, ⟨index, inRange, rfl⟩, (ref_writes made ref gpuToCpu blocks index).mp writing,
      original.localOffset + place, original.canonicalOffset + place, ?_⟩
    cases gpuToCpu with
    | true =>
        refine ⟨⟨original, inRuns, place, within, rfl, rfl⟩, ?_⟩
        simp only [base index, if_true]
        rw [shift _ (original.localOffset + place),
          shiftCpu _ (original.canonicalOffset + place)]
        simp only [Nat.add_assoc]
    | false =>
        refine ⟨⟨original, inRuns, place, within, rfl, rfl⟩, ?_⟩
        simp only [base index, Bool.false_eq_true, if_false]
        rw [shift _ (original.localOffset + place),
          shiftCpu _ (original.canonicalOffset + place)]
        simp only [Nat.add_assoc]
  · rintro ⟨_, ⟨index, inRange, rfl⟩, writing, _, _, ⟨original, inRuns, place, within, rfl, rfl⟩,
      moved⟩
    refine ⟨_, ⟨copyAt (worker.handler gpuToCpu) blocks index, List.mem_filter.mpr
      ⟨List.mem_map.mpr ⟨index, inRange, rfl⟩,
        (ref_writes made ref gpuToCpu blocks index).mpr writing⟩,
      _, List.mem_map.mpr ⟨original, inRuns, rfl⟩, rfl⟩, place, ?_⟩
    cases gpuToCpu with
    | true =>
        simp only [if_true, Prod.mk.injEq] at moved
        refine ⟨within, ?_, ?_⟩
        · simp only [base index, if_true]
          rw [moved.1, shift _ (original.localOffset + place), Nat.add_assoc]
        · simp only [base index, if_true]
          rw [moved.2, shiftCpu _ (original.canonicalOffset + place)]
          simp only [Nat.add_assoc]
    | false =>
        simp only [Bool.false_eq_true, if_false, Prod.mk.injEq] at moved
        refine ⟨within, ?_, ?_⟩
        · simp only [base index, Bool.false_eq_true, if_false]
          rw [moved.1, shiftCpu _ (original.canonicalOffset + place)]
          simp only [Nat.add_assoc]
        · simp only [base index, Bool.false_eq_true, if_false]
          rw [moved.2, shift _ (original.localOffset + place), Nat.add_assoc]

/-- A submitted transfer moves exactly the mapped bytes of the pages of its groups. -/
theorem transfer_moves (made : CanonicalWorker caches blocksPerChunk region sizes pairs worker)
    (positive : 0 < blocksPerChunk) {gpuToCpu : Bool} {gpuSpec : GPULoadStoreSpec}
    {cpuBlockIds : List Nat} {ops : List CopyOp}
    (submitted : (worker.handler gpuToCpu).transferAsync gpuSpec cpuBlockIds = .ok ops)
    (origin target : Nat) :
    MovedBytes ops origin target ↔ ∃ group, ∃ ref ∈ groupRefs caches group,
      ∃ page ∈ groupPages gpuToCpu blocksPerChunk gpuSpec cpuBlockIds group,
        MovesPage caches sizes blocksPerChunk region gpuToCpu ref page origin target := by
  obtain ⟨split, length, _⟩ := transfer_async_split submitted
  rw [made.direction, made.perChunk] at split length
  rw [made.refs] at split length
  subst split
  constructor
  · rintro ⟨op, member, moved⟩
    obtain ⟨⟨blocks, dataRefs⟩, inZip, inGroup⟩ := List.mem_flatMap.mp member
    obtain ⟨dataRef, listed, inLayer⟩ := List.mem_flatMap.mp inGroup
    obtain ⟨group, found⟩ := List.mem_iff_getElem?.mp inZip
    obtain ⟨blocksFound, refsFound⟩ := List.getElem?_zip_eq_some.mp found
    rw [List.getElem?_map, Option.map_eq_some_iff] at refsFound
    obtain ⟨refs, refsFound, rfl⟩ := refsFound
    obtain ⟨ref, inRefs, rfl⟩ := List.mem_map.mp listed
    obtain ⟨page, inPages, moves⟩ := (layer_moves made positive (List.mem_of_getElem? refsFound)
      inRefs gpuToCpu blocks origin target).mp ⟨op, inLayer, moved⟩
    refine ⟨group, ref, ?_, page, ?_, moves⟩
    · rw [groupRefs, refsFound]
      exact inRefs
    · rw [groupPages, blocksFound]
      exact inPages
  · rintro ⟨group, ref, inRefs, page, inPages, moves⟩
    unfold groupRefs at inRefs
    unfold groupPages at inPages
    cases refsFound : caches.groupDataRefs[group]? with
    | none =>
        rw [refsFound] at inRefs
        cases inRefs
    | some refs =>
        cases blocksFound : (transferBlocks gpuToCpu blocksPerChunk gpuSpec cpuBlockIds)[group]? with
        | none =>
            rw [blocksFound] at inPages
            cases inPages
        | some blocks =>
            rw [refsFound] at inRefs
            rw [blocksFound] at inPages
            obtain ⟨op, inLayer, moved⟩ := (layer_moves made positive
              (List.mem_of_getElem? refsFound) inRefs gpuToCpu blocks origin target).mpr
                ⟨page, inPages, moves⟩
            refine ⟨op, ?_, moved⟩
            apply List.mem_flatMap.mpr
            refine ⟨(blocks, refs.map (CanonicalKVCacheRef.toDataRef gpuToCpu)), ?_, ?_⟩
            · apply List.mem_of_getElem?
              rw [List.getElem?_zip_eq_some, List.getElem?_map, refsFound]
              exact ⟨blocksFound, rfl⟩
            · exact List.mem_flatMap.mpr ⟨_, List.mem_map.mpr ⟨ref, inRefs, rfl⟩, inLayer⟩

end Submitted

section Places

/-- A canonical byte lies in the row of its block, in the area of its tensor there and in the
page of its sub-block. -/
theorem canonical_byte_held {sizes : List Nat} {blocksPerChunk rowStride tensorIdx size : Nat}
    {place : Nat × Nat} {byte : Nat} (found : sizes[tensorIdx]? = some size)
    (room : carvedBytes (sizes.map fun size => size * blocksPerChunk) tensorIdx +
      size * blocksPerChunk ≤ rowStride)
    (within : place.2 < blocksPerChunk) (inPage : byte < size) :
    let offset := canonicalByte sizes blocksPerChunk rowStride tensorIdx place byte
    let area := place.1 * rowStride +
      carvedBytes (sizes.map fun size => size * blocksPerChunk) tensorIdx
    (cell 0 rowStride place.1).Holds offset ∧
      (Span.mk area (size * blocksPerChunk)).Holds offset ∧
      (cell area size place.2).Holds offset := by
  simp only [canonicalByte, List.getD_eq_getElem?_getD, found, Option.getD_some]
  generalize carvedBytes (sizes.map fun size => size * blocksPerChunk) tensorIdx = before at room ⊢
  have inSub : (cell (place.1 * rowStride + before) size place.2).Holds
      (place.1 * rowStride + (before + (place.2 * size + byte))) := by
    constructor
    · simp only [cell]
      omega
    · simp only [cell, Span.stop]
      omega
  have inArea := (cell_within (place.1 * rowStride + before) size within
    (le_of_eq (Nat.mul_comm _ _))).holds inSub
  have areaInRow : (Span.mk (place.1 * rowStride + before) (size * blocksPerChunk)).Within
      (cell 0 rowStride place.1) := by
    constructor
    · simp only [cell]
      omega
    · simp only [cell, Span.stop]
      omega
  exact ⟨areaInRow.holds inArea, inArea, inSub⟩

theorem canonical_byte_inj {sizes : List Nat} {blocksPerChunk rowStride : Nat}
    {tensorIdx other size otherSize : Nat} {place otherPlace : Nat × Nat} {byte otherByte : Nat}
    (found : sizes[tensorIdx]? = some size) (otherFound : sizes[other]? = some otherSize)
    (room : carvedBytes (sizes.map fun size => size * blocksPerChunk) tensorIdx +
      size * blocksPerChunk ≤ rowStride)
    (otherRoom : carvedBytes (sizes.map fun size => size * blocksPerChunk) other +
      otherSize * blocksPerChunk ≤ rowStride)
    (within : place.2 < blocksPerChunk) (otherWithin : otherPlace.2 < blocksPerChunk)
    (inPage : byte < size) (otherInPage : otherByte < otherSize)
    (same : canonicalByte sizes blocksPerChunk rowStride tensorIdx place byte =
      canonicalByte sizes blocksPerChunk rowStride other otherPlace otherByte) :
    tensorIdx = other ∧ place = otherPlace ∧ byte = otherByte := by
  have held := canonical_byte_held found room within inPage
  have otherHeld := canonical_byte_held otherFound otherRoom otherWithin otherInPage
  rw [← same] at otherHeld
  obtain ⟨row, area, sub⟩ := held
  obtain ⟨otherRow, otherArea, otherSub⟩ := otherHeld
  have blocks : place.1 = otherPlace.1 := by
    by_contra differ
    exact cells_apart 0 rowStride differ _ row otherRow
  rw [← blocks] at otherArea otherSub
  have tensors : tensorIdx = other := by
    by_contra differ
    have sized := (List.getElem?_map (f := fun size => size * blocksPerChunk)).trans
      (congrArg (Option.map fun size => size * blocksPerChunk) found)
    have otherSized := (List.getElem?_map (f := fun size => size * blocksPerChunk)).trans
      (congrArg (Option.map fun size => size * blocksPerChunk) otherFound)
    exact areas_apart (place.1 * rowStride) sized otherSized differ _ area otherArea
  subst tensors
  obtain rfl := Option.some.inj (found.symm.trans otherFound)
  have subs : place.2 = otherPlace.2 := by
    by_contra differ
    exact cells_apart _ size differ _ sub otherSub
  refine ⟨rfl, Prod.ext blocks subs, ?_⟩
  simp only [canonicalByte, blocks, subs] at same
  omega

/-- Sub-blocks of blocks that occur once are told apart by their places. -/
theorem slot_inj {groups : List (List Nat)} (distinct : groups.flatten.Nodup)
    {blocksPerChunk group other index otherIndex : Nat} {blocks otherBlocks : List Nat}
    (found : groups[group]? = some blocks) (otherFound : groups[other]? = some otherBlocks)
    (within : index < blocks.length * blocksPerChunk)
    (otherWithin : otherIndex < otherBlocks.length * blocksPerChunk)
    (same : slot blocksPerChunk blocks index = slot blocksPerChunk otherBlocks otherIndex) :
    group = other ∧ index = otherIndex := by
  have positive : 0 < blocksPerChunk := Nat.pos_of_mul_pos_left (Nat.zero_lt_of_lt within)
  have inBlocks : index / blocksPerChunk < blocks.length :=
    Nat.div_lt_of_lt_mul (Nat.mul_comm _ _ ▸ within)
  have inOthers : otherIndex / blocksPerChunk < otherBlocks.length :=
    Nat.div_lt_of_lt_mul (Nat.mul_comm _ _ ▸ otherWithin)
  obtain ⟨block, subBlock⟩ := Prod.mk.inj same
  rw [List.getD_eq_getElem?_getD, List.getD_eq_getElem?_getD, List.getElem?_eq_getElem inBlocks,
    List.getElem?_eq_getElem inOthers, Option.getD_some, Option.getD_some] at block
  obtain ⟨nodups, apart⟩ := List.nodup_flatten.mp distinct
  have sameGroup : group = other := by
    by_contra differ
    obtain ⟨groupIn, rfl⟩ := List.getElem?_eq_some_iff.mp found
    obtain ⟨otherIn, rfl⟩ := List.getElem?_eq_some_iff.mp otherFound
    have disjoint := List.pairwise_iff_getElem.mp apart
    have here := List.getElem_mem inBlocks
    have there := List.getElem_mem inOthers
    rw [← block] at there
    rcases Nat.lt_or_gt_of_ne differ with less | greater
    · exact disjoint _ _ groupIn otherIn less here there
    · exact disjoint _ _ otherIn groupIn greater there here
  subst sameGroup
  obtain rfl := Option.some.inj (found.symm.trans otherFound)
  refine ⟨rfl, ?_⟩
  have quotient := (nodups blocks (List.mem_of_getElem? found)).getElem_inj_iff.mp block
  rw [← Nat.div_add_mod index blocksPerChunk, ← Nat.div_add_mod otherIndex blocksPerChunk,
    quotient, subBlock]

variable {handler : SingleDirectionOffloadingHandler} {gpuSpec : GPULoadStoreSpec}
  {cpuBlockIds : List Nat} {ops : List CopyOp}

/-- The destination of a page in the list of its group. -/
theorem page_slots (submitted : handler.transferAsync gpuSpec cpuBlockIds = .ok ops)
    {gpuToCpu : Bool} {blocksPerChunk : Nat} (direction : handler.gpuToCpu = gpuToCpu)
    (perChunk : handler.blocksPerChunk = blocksPerChunk) {group : Nat} {page : PageCopy}
    (member : page ∈ groupPages gpuToCpu blocksPerChunk gpuSpec cpuBlockIds group) :
    ∃ blocks index,
      (transferBlocks gpuToCpu blocksPerChunk gpuSpec cpuBlockIds)[group]? = some blocks ∧
      page = pageAt gpuToCpu blocksPerChunk blocks index ∧
      blocks.dstSkipCount + index <
        blocks.dst.length * (if gpuToCpu then blocksPerChunk else 1) := by
  obtain ⟨_, _, filled⟩ := transfer_async_split submitted
  subst direction
  subst perChunk
  unfold groupPages at member
  cases found : (transferBlocks handler.gpuToCpu handler.blocksPerChunk gpuSpec
      cpuBlockIds)[group]? with
  | none =>
      rw [found] at member
      cases member
  | some blocks =>
      rw [found] at member
      obtain ⟨index, inRange, rfl⟩ := List.mem_map.mp member
      have within := List.mem_range.mp inRange
      have fits := (filled blocks (List.mem_of_getElem? found) (by omega)).dst
      unfold dstBlocksPerChunk at fits
      exact ⟨blocks, index, rfl, rfl, by omega⟩

/-- In a list of distinct destinations a slot belongs to one page. -/
theorem same_destination {gpuToCpu : Bool} {blocksPerChunk perChunk group other index otherIndex : Nat}
    {blocks otherBlocks : GroupBlocks}
    {destinations : List Nat}
    (parts : (transferBlocks gpuToCpu blocksPerChunk gpuSpec cpuBlockIds).flatMap
      GroupBlocks.dst <+: destinations) (distinct : destinations.Nodup)
    (found : (transferBlocks gpuToCpu blocksPerChunk gpuSpec cpuBlockIds)[group]? = some blocks)
    (otherFound : (transferBlocks gpuToCpu blocksPerChunk gpuSpec cpuBlockIds)[other]? =
      some otherBlocks)
    (within : blocks.dstSkipCount + index < blocks.dst.length * perChunk)
    (otherWithin : otherBlocks.dstSkipCount + otherIndex < otherBlocks.dst.length * perChunk)
    (same : slot perChunk blocks.dst (blocks.dstSkipCount + index) =
      slot perChunk otherBlocks.dst (otherBlocks.dstSkipCount + otherIndex)) :
    group = other ∧ blocks = otherBlocks ∧ index = otherIndex := by
  have once := distinct.sublist parts.sublist
  rw [List.flatMap_def] at once
  obtain ⟨sameGroup, sameIndex⟩ := slot_inj once
    ((List.getElem?_map).trans (congrArg (Option.map GroupBlocks.dst) found))
    ((List.getElem?_map).trans (congrArg (Option.map GroupBlocks.dst) otherFound)) within
    otherWithin same
  subst sameGroup
  obtain rfl := Option.some.inj (found.symm.trans otherFound)
  exact ⟨rfl, rfl, Nat.add_left_cancel sameIndex⟩

/-- A store into distinct CPU blocks copies to a place once. -/
theorem stored_once {blocksPerChunk : Nat}
    (submitted : handler.transferAsync gpuSpec cpuBlockIds = .ok ops)
    (storing : handler.gpuToCpu = true) (perChunk : handler.blocksPerChunk = blocksPerChunk)
    (distinct : cpuBlockIds.Nodup)
    {group otherGroup : Nat} {page other : PageCopy}
    (member : page ∈ groupPages true blocksPerChunk gpuSpec cpuBlockIds group)
    (otherMember : other ∈
      groupPages true blocksPerChunk gpuSpec cpuBlockIds otherGroup)
    (same : page.place = other.place) : group = otherGroup ∧ page = other := by
  obtain ⟨blocks, index, found, rfl, within⟩ := page_slots submitted storing perChunk member
  obtain ⟨otherBlocks, otherIndex, otherFound, rfl, otherWithin⟩ :=
    page_slots submitted storing perChunk otherMember
  have parts : (transferBlocks true blocksPerChunk gpuSpec cpuBlockIds).flatMap
      GroupBlocks.dst <+: cpuBlockIds := (split_blocks_heads _ _ _).2
  obtain ⟨sameGroup, rfl, rfl⟩ := same_destination parts distinct found otherFound within otherWithin
    (by simpa [pageAt, PageCopy.place] using same)
  exact ⟨sameGroup, rfl⟩

/-- A load into distinct GPU blocks copies to a block once. -/
theorem loaded_once {blocksPerChunk : Nat}
    (submitted : handler.transferAsync gpuSpec cpuBlockIds = .ok ops)
    (loading : handler.gpuToCpu = false) (perChunk : handler.blocksPerChunk = blocksPerChunk)
    (distinct : gpuSpec.blockIds.Nodup)
    {group otherGroup : Nat} {page other : PageCopy}
    (member : page ∈ groupPages false blocksPerChunk gpuSpec cpuBlockIds group)
    (otherMember : other ∈
      groupPages false blocksPerChunk gpuSpec cpuBlockIds otherGroup)
    (same : page.gpuBlock = other.gpuBlock) : group = otherGroup ∧ page = other := by
  obtain ⟨blocks, index, found, rfl, within⟩ := page_slots submitted loading perChunk member
  obtain ⟨otherBlocks, otherIndex, otherFound, rfl, otherWithin⟩ :=
    page_slots submitted loading perChunk otherMember
  have parts : (transferBlocks false blocksPerChunk gpuSpec cpuBlockIds).flatMap
      GroupBlocks.dst <+: gpuSpec.blockIds := (split_blocks_heads _ _ _).2
  obtain ⟨sameGroup, rfl, rfl⟩ := same_destination parts distinct found otherFound within otherWithin
    (by simpa [slot_one, pageAt] using same)
  exact ⟨sameGroup, rfl⟩

theorem place_within {gpuToCpu : Bool} {blocksPerChunk group : Nat} {page : PageCopy}
    (positive : 0 < blocksPerChunk)
    (member : page ∈ groupPages gpuToCpu blocksPerChunk gpuSpec cpuBlockIds group) :
    page.place.2 < blocksPerChunk := by
  unfold groupPages at member
  cases found : (transferBlocks gpuToCpu blocksPerChunk gpuSpec cpuBlockIds)[group]? with
  | none =>
      rw [found] at member
      cases member
  | some blocks =>
      rw [found] at member
      obtain ⟨index, _, rfl⟩ := List.mem_map.mp member
      cases gpuToCpu with
      | true => exact Nat.mod_lt _ positive
      | false => exact Nat.mod_lt _ positive

end Places

/-! ## Ranks -/

/-- The ranks of one region with their workers: rows and canonical pages are the same for
all of them. -/
structure Ranks (Rank : Type) (blocksPerChunk : Nat) where
  caches : Rank → CanonicalCaches
  region : Rank → SharedOffloadRegion
  worker : Rank → CPUOffloadingWorker
  rowStride : Nat
  sizes : List Nat
  positive : 0 < blocksPerChunk
  created : ∀ rank,
    newCanonicalWorker (caches rank) blocksPerChunk positive (region rank) = .ok (worker rank)
  stride : ∀ rank, (region rank).rowStride = rowStride
  sized : ∀ rank, canonicalBlockSizes (caches rank) = .ok sizes

/-- Two layers of different ranks hold the same canonical bytes. -/
def SameBytes (ref other : CanonicalKVCacheRef) : Prop :=
  ref.tensorIdx = other.tensorIdx ∧ ∀ byte,
    (∃ localByte, ref.mapping.Maps localByte byte) ↔ ∃ localByte, other.mapping.Maps localByte byte

theorem SameBytes.refl (ref : CanonicalKVCacheRef) : SameBytes ref ref := ⟨rfl, fun _ => Iff.rfl⟩

theorem SameBytes.symm {ref other : CanonicalKVCacheRef} (same : SameBytes ref other) :
    SameBytes other ref := ⟨same.1.symm, fun byte => (same.2 byte).symm⟩

theorem SameBytes.trans {first second third : CanonicalKVCacheRef}
    (left : SameBytes first second) (right : SameBytes second third) : SameBytes first third :=
  ⟨left.1.trans right.1, fun byte => (left.2 byte).trans (right.2 byte)⟩

namespace Ranks

variable {Rank : Type} {blocksPerChunk : Nat} (ranks : Ranks Rank blocksPerChunk)

def refs (rank : Rank) (group : Nat) : List CanonicalKVCacheRef :=
  groupRefs (ranks.caches rank) group

/-- The documented contract of the mappings: runs cover the local page once, in both
directions, and pages fit their tensors. Equal bytes have as many writers as there are
ranks with them, told apart by their indices, and other bytes are disjoint. -/
structure Contract : Prop where
  covers : ∀ rank group, ∀ ref ∈ ranks.refs rank group, ∀ localByte,
    localByte < ref.mapping.localPageSizeBytes ↔ ∃ byte, ref.mapping.Maps localByte byte
  once : ∀ rank group, ∀ ref ∈ ranks.refs rank group, ∀ localByte byte other,
    ref.mapping.Maps localByte byte → ref.mapping.Maps localByte other → byte = other
  back : ∀ rank group, ∀ ref ∈ ranks.refs rank group, ∀ localByte other byte,
    ref.mapping.Maps localByte byte → ref.mapping.Maps other byte → localByte = other
  canonical : ∀ rank group, ∀ ref ∈ ranks.refs rank group, ∀ localByte byte,
    ref.mapping.Maps localByte byte → byte < ref.mapping.canonicalPageSizeBytes
  fits : ∀ rank group, ∀ ref ∈ ranks.refs rank group, ∀ tensor,
    (ranks.caches rank).tensors[ref.tensorIdx]? = some tensor →
      ref.mapping.localPageSizeBytes ≤ tensor.pageSizeBytes
  tensors : ∀ rank group, ∀ ref ∈ ranks.refs rank group, ∀ other ∈ ranks.refs rank group,
    ref.tensorIdx = other.tensorIdx → ref = other
  writers : ∀ rank group, ∀ ref ∈ ranks.refs rank group, ∃ holders : Finset Rank,
    holders.card = ref.mapping.numWriters ∧ ∀ other,
      other ∈ holders ↔ ∃ same ∈ ranks.refs other group, SameBytes ref same
  indices : ∀ rank group, ∀ ref ∈ ranks.refs rank group, ∀ other,
    ∀ same ∈ ranks.refs other group, SameBytes ref same →
      same.mapping.numWriters = ref.mapping.numWriters ∧
        same.mapping.writerIndex < ref.mapping.numWriters ∧
        (same.mapping.writerIndex = ref.mapping.writerIndex → other = rank)
  disjoint : ∀ rank group, ∀ ref ∈ ranks.refs rank group, ∀ other,
    ∀ different ∈ ranks.refs other group, ref.tensorIdx = different.tensorIdx →
      ¬ SameBytes ref different → ∀ byte localByte otherByte,
        ref.mapping.Maps localByte byte → ¬ different.mapping.Maps otherByte byte

variable {ranks}

/-- Of the ranks with the same bytes exactly one has the turn of a page. -/
theorem turn_taken (contract : ranks.Contract) {rank : Rank} {group : Nat}
    {ref : CanonicalKVCacheRef} (member : ref ∈ ranks.refs rank group) (pageId : Nat) :
    ∃ writer, ∃ same ∈ ranks.refs writer group, SameBytes ref same ∧
      same.mapping.isWriter pageId = true := by
  classical
  obtain ⟨holders, count, held⟩ := contract.writers rank group ref member
  have some : 0 < ref.mapping.numWriters := by
    rw [← count]
    exact Finset.card_pos.mpr ⟨rank, (held rank).mpr ⟨ref, member, SameBytes.refl ref⟩⟩
  choose same listed bytes using fun other : holders => (held other.1).mp other.2
  have indexed := fun other : holders =>
    contract.indices rank group ref member other.1 (same other) (listed other) (bytes other)
  have injective : Function.Injective fun other : holders =>
      (⟨(same other).mapping.writerIndex, (indexed other).2.1⟩ : Fin ref.mapping.numWriters) := by
    intro first second equal
    have sameIndex := Fin.mk.inj equal
    apply Subtype.ext
    exact (contract.indices second.1 group (same second) (listed second) first.1 (same first)
      (listed first) ((bytes second).symm.trans (bytes first))).2.2 sameIndex
  have surjective := ((Fintype.bijective_iff_injective_and_card _).mpr
    ⟨injective, by rw [Fintype.card_coe, count, Fintype.card_fin]⟩).surjective
  obtain ⟨writer, turn⟩ := surjective ⟨pageId % ref.mapping.numWriters, Nat.mod_lt _ some⟩
  refine ⟨writer.1, same writer, listed writer, bytes writer, ?_⟩
  rw [CanonicalPageMapping.isWriter, decide_eq_true_eq, (indexed writer).1]
  exact (congrArg Fin.val turn).symm

/-- Two ranks with the same bytes that both store a page are one rank. -/
theorem turn_unique (contract : ranks.Contract) {rank other : Rank} {group : Nat}
    {ref same : CanonicalKVCacheRef} (member : ref ∈ ranks.refs rank group)
    (otherMember : same ∈ ranks.refs other group) (bytes : SameBytes ref same) {page : PageCopy}
    (copies : CopiesPage true blocksPerChunk ref page)
    (otherCopies : CopiesPage true blocksPerChunk same page) : other = rank := by
  obtain ⟨writers, index, turn⟩ :=
    contract.indices rank group ref member other same otherMember bytes
  obtain ⟨_, ownIndex, _⟩ := contract.indices rank group ref member rank ref member (SameBytes.refl ref)
  apply turn
  by_cases several : 1 < ref.mapping.numWriters
  · have first := of_decide_eq_true (copies rfl several)
    have second := of_decide_eq_true (otherCopies rfl (writers ▸ several))
    rw [writers] at second
    exact second.symm.trans first
  · omega

theorem made (rank : Rank) : ∃ pairs, CanonicalWorker (ranks.caches rank) blocksPerChunk
    (ranks.region rank) ranks.sizes pairs (ranks.worker rank) := by
  obtain ⟨sizes, pairs, made⟩ := new_canonical_worker_ok (ranks.created rank)
  obtain rfl := Except.ok.inj (made.sized.symm.trans (ranks.sized rank))
  exact ⟨pairs, made⟩

variable (ranks) in
/-- The offset in the region of a canonical byte of a sub-block. -/
def offset (tensorIdx : Nat) (place : Nat × Nat) (byte : Nat) : Nat :=
  canonicalByte ranks.sizes blocksPerChunk ranks.rowStride tensorIdx place byte

/-- A layer's tensor with the room of its canonical pages. -/
theorem ref_room {rank : Rank} {group : Nat} {ref : CanonicalKVCacheRef}
    (member : ref ∈ ranks.refs rank group) : ∃ tensor size,
      (ranks.caches rank).tensors[ref.tensorIdx]? = some tensor ∧
      ranks.sizes[ref.tensorIdx]? = some size ∧ ref.mapping.canonicalPageSizeBytes ≤ size ∧
      carvedBytes (ranks.sizes.map fun size => size * blocksPerChunk) ref.tensorIdx +
        size * blocksPerChunk ≤ ranks.rowStride := by
  obtain ⟨pairs, made⟩ := ranks.made rank
  unfold refs groupRefs at member
  cases found : (ranks.caches rank).groupDataRefs[group]? with
  | none =>
      rw [found] at member
      cases member
  | some refs =>
      rw [found] at member
      obtain ⟨tensor, size, pair, tensorFound, sizeFound, fits, _, layout⟩ :=
        pairs_of_sizes made.sized made.carved refs (List.mem_of_getElem? found) ref member
      have room := layout.room
      rw [ranks.stride, Nat.zero_add] at room
      exact ⟨tensor, size, tensorFound, sizeFound, fits, room⟩

section Stores

variable {store : GPULoadStoreSpec} {cpuBlockIds : List Nat} {stores : Rank → List CopyOp}

theorem store_moves (submitted : ∀ rank,
      ((ranks.worker rank).handler true).transferAsync store cpuBlockIds = .ok (stores rank))
    (rank : Rank) (origin target : Nat) :
    MovedBytes (stores rank) origin ((ranks.region rank).basePtr + target) ↔
      ∃ group, ∃ ref ∈ ranks.refs rank group,
        ∃ page ∈ groupPages true blocksPerChunk store cpuBlockIds group,
          CopiesPage true blocksPerChunk ref page ∧ ∃ localByte byte,
            ref.mapping.Maps localByte byte ∧
            origin = gpuByte (ranks.caches rank).tensors ref.tensorIdx page.gpuBlock localByte ∧
            target = ranks.offset ref.tensorIdx page.place byte := by
  obtain ⟨pairs, made⟩ := ranks.made rank
  rw [transfer_moves made ranks.positive (submitted rank)]
  simp only [MovesPage, if_true, Prod.mk.injEq, ranks.stride, Nat.add_left_cancel_iff]
  rfl

/-- Whoever writes a canonical byte has it among the same bytes and writes it from the same
page. -/
theorem written_by (contract : ranks.Contract) (distinct : cpuBlockIds.Nodup)
    (submitted : ∀ rank,
      ((ranks.worker rank).handler true).transferAsync store cpuBlockIds = .ok (stores rank))
    {rank other : Rank} {group : Nat} {ref : CanonicalKVCacheRef} {page : PageCopy}
    {localByte byte origin : Nat} (member : ref ∈ ranks.refs rank group)
    (listed : page ∈ groupPages true blocksPerChunk store cpuBlockIds group)
    (maps : ref.mapping.Maps localByte byte)
    (moved : MovedBytes (stores other) origin
      ((ranks.region other).basePtr + ranks.offset ref.tensorIdx page.place byte)) :
    ∃ same ∈ ranks.refs other group, SameBytes ref same ∧
      CopiesPage true blocksPerChunk same page ∧ ∃ otherByte, same.mapping.Maps otherByte byte ∧
        origin =
          gpuByte (ranks.caches other).tensors same.tensorIdx page.gpuBlock otherByte := by
  obtain ⟨otherGroup, same, otherMember, otherPage, otherListed, copies, otherByte, sameByte,
    otherMaps, read, offsets⟩ := (store_moves submitted other origin _).mp moved
  obtain ⟨_, size, _, found, fits, room⟩ := ref_room member
  obtain ⟨_, otherSize, _, otherFound, otherFits, otherRoom⟩ := ref_room otherMember
  obtain ⟨tensors, places, rfl⟩ := canonical_byte_inj found otherFound room otherRoom
    (place_within ranks.positive listed) (place_within ranks.positive otherListed)
    ((contract.canonical rank group ref member localByte byte maps).trans_le fits)
    ((contract.canonical other otherGroup same otherMember otherByte sameByte
      otherMaps).trans_le otherFits) offsets
  obtain ⟨pairs, made⟩ := ranks.made rank
  obtain ⟨rfl, rfl⟩ := stored_once (submitted rank) (made.direction true) (made.perChunk true)
    distinct listed otherListed places
  have bytes : SameBytes ref same := by
    by_contra different
    exact contract.disjoint rank group ref member other same otherMember tensors different _ _ _
      maps otherMaps
  exact ⟨same, otherMember, bytes, copies, otherByte, otherMaps, read⟩

theorem written_once (contract : ranks.Contract) (distinct : cpuBlockIds.Nodup)
    (submitted : ∀ rank,
      ((ranks.worker rank).handler true).transferAsync store cpuBlockIds = .ok (stores rank))
    {rank : Rank} {group : Nat} {ref : CanonicalKVCacheRef} {page : PageCopy}
    {localByte byte : Nat} (member : ref ∈ ranks.refs rank group)
    (listed : page ∈ groupPages true blocksPerChunk store cpuBlockIds group)
    (maps : ref.mapping.Maps localByte byte) :
    ∃! writer, ∃ origin, MovedBytes (stores writer) origin
      ((ranks.region writer).basePtr + ranks.offset ref.tensorIdx page.place byte) := by
  obtain ⟨writer, same, otherMember, bytes, turn⟩ :=
    turn_taken contract member (page.pageId blocksPerChunk)
  have copies : CopiesPage true blocksPerChunk same page := fun _ _ => turn
  obtain ⟨otherByte, otherMaps⟩ := (bytes.2 byte).mp ⟨localByte, maps⟩
  refine ⟨writer, ⟨_, (store_moves submitted writer _ _).mpr ⟨group, same, otherMember, page,
    listed, copies, otherByte, byte, otherMaps, rfl, ?_⟩⟩, ?_⟩
  · rw [bytes.1]
  · rintro other ⟨origin, moved⟩
    obtain ⟨third, thirdMember, thirdBytes, thirdCopies, _⟩ :=
      written_by contract distinct submitted member listed maps moved
    exact turn_unique contract otherMember thirdMember (bytes.symm.trans thirdBytes) copies
      thirdCopies

end Stores

section Loads

variable {load : GPULoadStoreSpec} {loadBlockIds : List Nat} {loads : List CopyOp} {rank : Rank}

theorem load_moves
    (submitted : ((ranks.worker rank).handler false).transferAsync load loadBlockIds = .ok loads)
    (origin target : Nat) :
    MovedBytes loads ((ranks.region rank).basePtr + origin) target ↔
      ∃ group, ∃ ref ∈ ranks.refs rank group,
        ∃ page ∈ groupPages false blocksPerChunk load loadBlockIds group, ∃ localByte byte,
          ref.mapping.Maps localByte byte ∧
          origin = ranks.offset ref.tensorIdx page.place byte ∧
          target = gpuByte (ranks.caches rank).tensors ref.tensorIdx page.gpuBlock localByte := by
  obtain ⟨pairs, made⟩ := ranks.made rank
  rw [transfer_moves made ranks.positive submitted]
  simp only [MovesPage, CopiesPage, Bool.false_eq_true, false_implies, true_and, if_false,
    Prod.mk.injEq, ranks.stride, Nat.add_left_cancel_iff]
  rfl

/-- The KV cache tensors of a worker are allocations that do not overlap. -/
def TensorsApart (tensors : List CanonicalKVCacheTensor) (numGpuBlocks : Nat) : Prop :=
  ∀ (first second : Nat) (tensor other : CanonicalKVCacheTensor), tensors[first]? = some tensor →
    tensors[second]? = some other → first ≠ second →
      (Span.mk tensor.dataPtr (numGpuBlocks * tensor.pageSizeBytes)).Apart
        ⟨other.dataPtr, numGpuBlocks * other.pageSizeBytes⟩

theorem gpu_byte_inj {tensors : List CanonicalKVCacheTensor} {numGpuBlocks : Nat}
    (apart : TensorsApart tensors numGpuBlocks) {tensorIdx otherIdx block otherBlock byte
      otherByte : Nat} {tensor other : CanonicalKVCacheTensor}
    (found : tensors[tensorIdx]? = some tensor) (otherFound : tensors[otherIdx]? = some other)
    (valid : block < numGpuBlocks) (otherValid : otherBlock < numGpuBlocks)
    (within : byte < tensor.pageSizeBytes) (otherWithin : otherByte < other.pageSizeBytes)
    (same : gpuByte tensors tensorIdx block byte = gpuByte tensors otherIdx otherBlock otherByte) :
    tensorIdx = otherIdx ∧ block = otherBlock ∧ byte = otherByte := by
  simp only [gpuByte, found, otherFound, Option.map_some, Option.getD_some] at same
  have inBlock : (cell tensor.dataPtr tensor.pageSizeBytes block).Holds
      (tensor.dataPtr + block * tensor.pageSizeBytes + byte) := by
    constructor
    · simp only [cell]
      omega
    · simp only [cell, Span.stop]
      omega
  have inOther : (cell other.dataPtr other.pageSizeBytes otherBlock).Holds
      (tensor.dataPtr + block * tensor.pageSizeBytes + byte) := by
    rw [same]
    constructor
    · simp only [cell]
      omega
    · simp only [cell, Span.stop]
      omega
  have tensors : tensorIdx = otherIdx := by
    by_contra differ
    exact apart tensorIdx otherIdx tensor other found otherFound differ _
      ((cell_within _ _ valid le_rfl).holds inBlock)
      ((cell_within _ _ otherValid le_rfl).holds inOther)
  subst tensors
  obtain rfl := Option.some.inj (found.symm.trans otherFound)
  have blocks : block = otherBlock := by
    by_contra differ
    exact cells_apart _ _ differ _ inBlock inOther
  subst blocks
  exact ⟨rfl, rfl, Nat.add_left_cancel same⟩

theorem loaded_block_listed
    (submitted : ((ranks.worker rank).handler false).transferAsync load loadBlockIds = .ok loads)
    {group : Nat} {page : PageCopy}
    (listed : page ∈ groupPages false blocksPerChunk load loadBlockIds group) :
    page.gpuBlock ∈ load.blockIds := by
  obtain ⟨pairs, made⟩ := ranks.made rank
  obtain ⟨blocks, index, found, rfl, within⟩ :=
    page_slots submitted (made.direction false) (made.perChunk false) listed
  have parts : (transferBlocks false blocksPerChunk load loadBlockIds).flatMap
      GroupBlocks.dst <+: load.blockIds := (split_blocks_heads _ _ _).2
  apply parts.subset
  apply List.mem_flatMap.mpr
  refine ⟨blocks, List.mem_of_getElem? found, ?_⟩
  rw [if_neg Bool.false_ne_true, Nat.mul_one] at within
  simp only [pageAt, Bool.false_eq_true, if_false, List.getD_eq_getElem?_getD,
    List.getElem?_eq_getElem within, Option.getD_some]
  exact List.getElem_mem within

/-- A byte of a loaded page comes from one canonical byte. -/
theorem loaded_from (contract : ranks.Contract)
    (submitted : ((ranks.worker rank).handler false).transferAsync load loadBlockIds = .ok loads)
    (distinct : load.blockIds.Nodup) {numGpuBlocks : Nat}
    (apart : TensorsApart (ranks.caches rank).tensors numGpuBlocks)
    (valid : ∀ block ∈ load.blockIds, block < numGpuBlocks) {group : Nat}
    {ref : CanonicalKVCacheRef} {page : PageCopy} {localByte byte origin : Nat}
    (member : ref ∈ ranks.refs rank group)
    (listed : page ∈ groupPages false blocksPerChunk load loadBlockIds group)
    (maps : ref.mapping.Maps localByte byte)
    (moved : MovedBytes loads ((ranks.region rank).basePtr + origin)
      (gpuByte (ranks.caches rank).tensors ref.tensorIdx page.gpuBlock localByte)) :
    origin = ranks.offset ref.tensorIdx page.place byte := by
  obtain ⟨otherGroup, other, otherMember, otherPage, otherListed, otherLocal, otherByte, otherMaps,
    read, pages⟩ := (load_moves submitted origin _).mp moved
  obtain ⟨tensor, _, found, _, _, _⟩ := ref_room member
  obtain ⟨otherTensor, _, otherFound, _, _, _⟩ := ref_room otherMember
  have inPage : localByte < tensor.pageSizeBytes :=
    ((contract.covers rank group ref member localByte).mpr ⟨byte, maps⟩).trans_le
      (contract.fits rank group ref member tensor found)
  have otherInPage : otherLocal < otherTensor.pageSizeBytes :=
    ((contract.covers rank otherGroup other otherMember otherLocal).mpr
      ⟨otherByte, otherMaps⟩).trans_le
        (contract.fits rank otherGroup other otherMember otherTensor otherFound)
  obtain ⟨tensors, blocks, rfl⟩ := gpu_byte_inj apart found otherFound
    (valid _ (loaded_block_listed submitted listed))
    (valid _ (loaded_block_listed submitted otherListed)) inPage otherInPage pages
  obtain ⟨pairs, made⟩ := ranks.made rank
  obtain ⟨rfl, rfl⟩ := loaded_once submitted (made.direction false) (made.perChunk false) distinct
    listed otherListed blocks
  obtain rfl := contract.tensors rank group ref member other otherMember tensors
  rw [read, contract.once rank group ref member localByte byte otherByte maps otherMaps]

end Loads

variable (ranks) in
/-- Ranks with the same bytes hold them: the pages of a store agree wherever two layers map
the same canonical byte. -/
def Identical {Byte : Type} (gpu : Rank → Nat → Byte) (store : GPULoadStoreSpec)
    (cpuBlockIds : List Nat) : Prop :=
  ∀ group rank other, ∀ ref ∈ ranks.refs rank group, ∀ same ∈ ranks.refs other group,
    SameBytes ref same → ∀ page ∈ groupPages true blocksPerChunk store cpuBlockIds group,
      ∀ localByte otherByte byte, ref.mapping.Maps localByte byte →
        same.mapping.Maps otherByte byte →
          gpu other (gpuByte (ranks.caches other).tensors same.tensorIdx page.gpuBlock otherByte) =
            gpu rank (gpuByte (ranks.caches rank).tensors ref.tensorIdx page.gpuBlock localByte)

end Ranks

/-- Submitting a store to all ranks writes every mapped canonical byte from exactly one
rank, and a later load on any rank, into any distinct GPU blocks, gives every page of a
stored sub-block the bytes it had on that rank. -/
theorem canonical_round_trip {Rank : Type} {blocksPerChunk : Nat}
    (ranks : Ranks Rank blocksPerChunk) (contract : ranks.Contract) {store : GPULoadStoreSpec}
    {cpuBlockIds : List Nat} (distinct : cpuBlockIds.Nodup) {stores : Rank → List CopyOp}
    (submitted : ∀ rank,
      ((ranks.worker rank).handler true).transferAsync store cpuBlockIds = .ok (stores rank)) :
    (∀ rank group, ∀ ref ∈ ranks.refs rank group,
      ∀ page ∈ groupPages true blocksPerChunk store cpuBlockIds group, ∀ localByte byte,
        ref.mapping.Maps localByte byte → ∃! writer, ∃ origin, MovedBytes (stores writer) origin
          ((ranks.region writer).basePtr + ranks.offset ref.tensorIdx page.place byte)) ∧
    ∀ (Byte : Type) (gpu : Rank → Nat → Byte) (before tier : Nat → Byte),
      ranks.Identical gpu store cpuBlockIds →
      Copied (fun (origin : Rank × Nat) target => MovedBytes (stores origin.1) origin.2
        ((ranks.region origin.1).basePtr + target)) (fun origin => gpu origin.1 origin.2)
        before tier →
      ∀ rank load loadBlockIds loads numGpuBlocks,
        ((ranks.worker rank).handler false).transferAsync load loadBlockIds = .ok loads →
        load.blockIds.Nodup → Ranks.TensorsApart (ranks.caches rank).tensors numGpuBlocks →
        (∀ block ∈ load.blockIds, block < numGpuBlocks) →
        ∀ (gpuBefore gpuAfter : Nat → Byte),
          Copied (fun origin target =>
            MovedBytes loads ((ranks.region rank).basePtr + origin) target) tier gpuBefore
            gpuAfter →
          ∀ group, ∀ ref ∈ ranks.refs rank group,
            ∀ stored ∈ groupPages true blocksPerChunk store cpuBlockIds group,
            ∀ loaded ∈ groupPages false blocksPerChunk load loadBlockIds group,
              loaded.place = stored.place → ∀ byte < ref.mapping.localPageSizeBytes,
                gpuAfter (gpuByte (ranks.caches rank).tensors ref.tensorIdx loaded.gpuBlock byte) =
                  gpu rank
                    (gpuByte (ranks.caches rank).tensors ref.tensorIdx stored.gpuBlock byte) := by
  constructor
  · intro rank group ref member page listed localByte byte maps
    exact Ranks.written_once contract distinct submitted member listed maps
  · intro Byte gpu before tier identical copied rank load loadBlockIds loads numGpuBlocks loading
      gpuDistinct apart valid gpuBefore gpuAfter loadedBytes group ref member stored storedListed
      loaded loadedListed samePlace localByte inPage
    obtain ⟨byte, maps⟩ := (contract.covers rank group ref member localByte).mp inPage
    obtain ⟨writer, ⟨origin, moved⟩, _⟩ :=
      Ranks.written_once contract distinct submitted member storedListed maps
    have agree : ∀ (other : Rank × Nat), MovedBytes (stores other.1) other.2
        ((ranks.region other.1).basePtr + ranks.offset ref.tensorIdx stored.place byte) →
          gpu other.1 other.2 = gpu rank
            (gpuByte (ranks.caches rank).tensors ref.tensorIdx stored.gpuBlock localByte) := by
      intro other written
      obtain ⟨same, otherMember, bytes, _, otherByte, otherMaps, read⟩ :=
        Ranks.written_by contract distinct submitted member storedListed maps written
      rw [read]
      exact identical group rank other.1 ref member same otherMember bytes stored storedListed
        localByte otherByte byte maps otherMaps
    have returns : MovedBytes loads ((ranks.region rank).basePtr +
        ranks.offset ref.tensorIdx stored.place byte)
        (gpuByte (ranks.caches rank).tensors ref.tensorIdx loaded.gpuBlock localByte) := by
      apply (Ranks.load_moves loading _ _).mpr
      exact ⟨group, ref, member, loaded, loadedListed, localByte, byte, maps, by rw [samePlace], rfl⟩
    have trip := copied.round_trip loadedBytes (writer, origin) moved returns
      (fun other written => (agree other written).trans (agree (writer, origin) moved).symm)
      (fun other back => by
        rw [Ranks.loaded_from contract loading gpuDistinct apart valid member loadedListed maps back,
          samePlace])
    rw [trip]
    exact agree (writer, origin) moved

/-! Two ranks with the same two bytes take turns on the pages of one tensor. -/

def sharedRef (rank : Bool) : CanonicalKVCacheRef := ⟨0, 2, 2, 2, [⟨0, 0, 1, 2, 1, 1⟩], 2, rank.toNat⟩

def sharedCaches (rank : Bool) : CanonicalCaches := ⟨[⟨100, 2⟩], [[sharedRef rank]]⟩

def sharedRegion (rank : Bool) : SharedOffloadRegion := ⟨if rank then 4096 else 8192, 4, 8, 0, 0, 0⟩

theorem shared_worker_made (rank : Bool) : (newCanonicalWorker (sharedCaches rank) 2 Nat.two_pos
    (sharedRegion rank)).toOption.isSome = true := by
  cases rank <;> rfl

def sharedWorker (rank : Bool) : CPUOffloadingWorker :=
  (newCanonicalWorker (sharedCaches rank) 2 Nat.two_pos (sharedRegion rank)).toOption.get
    (shared_worker_made rank)

def sharedRanks : Ranks Bool 2 where
  caches := sharedCaches
  region := sharedRegion
  worker := sharedWorker
  rowStride := 8
  sizes := [2]
  positive := Nat.two_pos
  created := by
    intro rank
    cases rank <;> rfl
  stride := fun _ => rfl
  sized := by
    intro rank
    cases rank <;> rfl

theorem shared_maps (rank : Bool) (localByte byte : Nat) :
    (sharedRef rank).mapping.Maps localByte byte ↔ localByte < 2 ∧ byte = localByte := by
  simp only [CanonicalPageMapping.Maps, CanonicalPageMapping.fragments, sharedRef,
    List.flatMap_cons, List.flatMap_nil, CopyRun.fragments, List.append_nil, List.mem_map,
    List.mem_range]
  constructor
  · rintro ⟨_, ⟨index, within, rfl⟩, place, inside, rfl, rfl⟩
    simp only at inside
    refine ⟨?_, rfl⟩
    simp only
    omega
  · rintro ⟨within, rfl⟩
    exact ⟨_, ⟨byte, within, rfl⟩, 0, Nat.one_pos, by simp, by simp⟩

theorem shared_refs {rank : Bool} {group : Nat} {ref : CanonicalKVCacheRef}
    (member : ref ∈ sharedRanks.refs rank group) : ref = sharedRef rank ∧ group = 0 := by
  cases group with
  | zero => exact ⟨List.mem_singleton.mp member, rfl⟩
  | succ group => cases member

theorem shared_same (rank other : Bool) : SameBytes (sharedRef rank) (sharedRef other) := by
  refine ⟨rfl, fun byte => ?_⟩
  simp only [shared_maps]

theorem shared_contract : sharedRanks.Contract := by
  constructor
  · intro rank group ref member localByte
    obtain ⟨rfl, _⟩ := shared_refs member
    simp only [shared_maps, exists_and_left, exists_eq, and_true]
    rfl
  · intro rank group ref member localByte byte other maps otherMaps
    obtain ⟨rfl, _⟩ := shared_refs member
    rw [shared_maps] at maps otherMaps
    exact maps.2.trans otherMaps.2.symm
  · intro rank group ref member localByte other byte maps otherMaps
    obtain ⟨rfl, _⟩ := shared_refs member
    rw [shared_maps] at maps otherMaps
    exact maps.2.symm.trans otherMaps.2
  · intro rank group ref member localByte byte maps
    obtain ⟨rfl, _⟩ := shared_refs member
    rw [shared_maps] at maps
    exact maps.2 ▸ maps.1
  · intro rank group ref member tensor found
    obtain ⟨rfl, _⟩ := shared_refs member
    cases found
    exact le_rfl
  · intro rank group ref member other otherMember _
    rw [(shared_refs member).1, (shared_refs otherMember).1]
  · intro rank group ref member
    obtain ⟨rfl, rfl⟩ := shared_refs member
    refine ⟨Finset.univ, rfl, ?_⟩
    intro other
    exact iff_of_true (Finset.mem_univ other)
      ⟨sharedRef other, List.mem_singleton.mpr rfl, shared_same rank other⟩
  · intro rank group ref member other same otherMember _
    obtain ⟨rfl, _⟩ := shared_refs member
    obtain ⟨rfl, _⟩ := shared_refs otherMember
    refine ⟨rfl, ?_, ?_⟩
    · cases rank <;> cases other <;> decide
    · cases rank <;> cases other <;> decide
  · intro rank group ref member other different otherMember _ apart
    obtain ⟨rfl, _⟩ := shared_refs member
    obtain ⟨rfl, _⟩ := shared_refs otherMember
    exact absurd (shared_same rank other) apart

/-- Two sub-blocks go out from blocks 5 and 6 and come back into blocks 8 and 9: byte 1 of
block 9 is what byte 1 of block 6 was. -/
theorem shared_round_trip : ∃ stores : Bool → List CopyOp, ∃ loads tier gpuAfter,
    (∀ rank, ((sharedRanks.worker rank).handler true).transferAsync
      ⟨[5, 6], [2], [0], rfl, rfl⟩ [3] = .ok (stores rank)) ∧
    Copied (fun (origin : Bool × Nat) target => MovedBytes (stores origin.1) origin.2
      ((sharedRegion origin.1).basePtr + target)) (fun origin => origin.2) (fun _ => 0) tier ∧
    ((sharedRanks.worker true).handler false).transferAsync
      ⟨[8, 9], [2], [0], rfl, rfl⟩ [3] = .ok loads ∧
    Copied (fun origin target => MovedBytes loads (4096 + origin) target) tier (fun _ => 0)
      gpuAfter ∧
    (∃! writer, ∃ origin, MovedBytes (stores writer) origin
      ((sharedRegion writer).basePtr + sharedRanks.offset 0 (3, 1) 1)) ∧
    gpuAfter 119 = 113 := by
  have storing : ∀ rank, ∃ ops, ((sharedRanks.worker rank).handler true).transferAsync
      ⟨[5, 6], [2], [0], rfl, rfl⟩ [3] = .ok ops := by
    intro rank
    cases rank <;> exact raised_eq_none.mp rfl
  choose stores submitted using storing
  obtain ⟨loads, loading⟩ : ∃ ops, ((sharedRanks.worker true).handler false).transferAsync
      ⟨[8, 9], [2], [0], rfl, rfl⟩ [3] = .ok ops := raised_eq_none.mp rfl
  obtain ⟨tier, stored⟩ := exists_copied (fun (origin : Bool × Nat) target =>
    MovedBytes (stores origin.1) origin.2 ((sharedRegion origin.1).basePtr + target))
    (fun origin => origin.2) fun _ => 0
  obtain ⟨gpuAfter, loaded⟩ := exists_copied
    (fun origin target => MovedBytes loads (4096 + origin) target) tier fun _ => 0
  obtain ⟨once, trip⟩ := canonical_round_trip sharedRanks shared_contract
    (List.nodup_singleton 3) submitted
  have identical : sharedRanks.Identical (fun _ address => address)
      ⟨[5, 6], [2], [0], rfl, rfl⟩ [3] := by
    intro group rank other ref member same otherMember _ page _ localByte otherByte byte maps
      otherMaps
    obtain ⟨rfl, _⟩ := shared_refs member
    obtain ⟨rfl, _⟩ := shared_refs otherMember
    rw [shared_maps] at maps otherMaps
    rw [← maps.2, ← otherMaps.2]
    rfl
  have apart : Ranks.TensorsApart (sharedRanks.caches true).tensors 10 := by
    intro first second tensor other found otherFound differ
    have inFirst := (List.getElem?_eq_some_iff.mp found).1
    have inSecond := (List.getElem?_eq_some_iff.mp otherFound).1
    simp only [sharedRanks, sharedCaches, List.length_singleton] at inFirst inSecond
    omega
  refine ⟨stores, loads, tier, gpuAfter, submitted, stored, loading, loaded, ?_, ?_⟩
  · exact once true 0 (sharedRef true) (List.mem_singleton.mpr rfl) ⟨3, 1, 6⟩ (by decide) 1 1
      ((shared_maps true 1 1).mpr ⟨by decide, rfl⟩)
  · exact trip Nat (fun _ address => address) (fun _ => 0) tier identical stored true _ [3] loads 10
      loading (by decide) apart (by decide) (fun _ => 0) gpuAfter loaded 0 (sharedRef true)
      (List.mem_singleton.mpr rfl) ⟨3, 1, 6⟩ (by decide) ⟨3, 1, 9⟩ (by decide) rfl 1 (by decide)

end KvOffload.CanonicalRoundTrip
