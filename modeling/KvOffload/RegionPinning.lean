import KvOffload.Base
import KvOffload.ByteSpans

/-!
# Pinning of the shared region

`pin_mmap_region` registers the region with the driver in chunks. The chunks always tile
the region. Their size is a multiple of the row stride only for the strides that the code
aligns to, so that a row of another stride can lie across a seam. A failed registration is
rolled back.
-/

namespace KvOffload.RegionPinning

open KvOffload KvOffload.Base KvOffload.ByteSpans

set_option autoImplicit false

def mebibyte : Nat := 1024 ^ 2

def hugePage : Nat := 2097152

/-- The bytes of a material row, a multiple of the page size. -/
abbrev RowStride := { bytes : Nat // 0 < bytes ∧ 4096 ∣ bytes }

structure SharedOffloadRegion where
  basePtr : Nat
  numBlocks : Nat
  rowStride : RowStride
  isPinned : Bool
  registeredChunks : List Span
  deriving DecidableEq

namespace SharedOffloadRegion

def new (basePtr numBlocks : Nat) (rowStride : RowStride) : SharedOffloadRegion :=
  ⟨basePtr, numBlocks, rowStride, false, []⟩

def totalSizeBytes (region : SharedOffloadRegion) : Nat := region.numBlocks * region.rowStride

def row (region : SharedOffloadRegion) (index : Nat) : Span :=
  cell region.basePtr region.rowStride index

end SharedOffloadRegion

inductive CudaCall where
  | hostRegister (chunk : Span)
  | getLastError
  | hostUnregister (ptr : Nat)
  deriving DecidableEq

/-- The setting in GiB; none is unset, and a text that is no integer is inner none. -/
def chunkGb : Option (Option Int) → Int
  | some (some value) => value
  | _ => 64

/-- Clamped, and rounded down to huge pages. -/
def configuredChunk (raw : Option (Option Int)) : Nat :=
  (max (64 * mebibyte : Int) (min (chunkGb raw * 1024 ^ 3) (512 * 1024 ^ 3)) /
    hugePage * hugePage).toNat

/-- The row alignment is for huge-page strides, as long as the chunk stays big enough. -/
def alignedChunk (chunk rowStride : Nat) : Nat :=
  if 0 < rowStride ∧ rowStride < chunk ∧ rowStride % hugePage = 0 then
    let aligned := chunk / rowStride * rowStride
    if 64 * mebibyte ≤ aligned then aligned else chunk
  else chunk

def chunkSpan (basePtr total chunk index : Nat) : Span :=
  ⟨basePtr + index * chunk, min chunk (total - index * chunk)⟩

/-- The registration loop; `answer` is the result code of a chunk. The codes of the
rollback are only logged. -/
def registerChunks (answer : Nat → Int) (span : Nat → Span) :
    Nat → Nat → List Span → Option (List Span) × List CudaCall
  | 0, _, registered => (some registered, [])
  | remaining + 1, index, registered =>
      if answer index ≠ 0 then
        (none, .hostRegister (span index) :: .getLastError ::
          registered.reverse.map fun chunk => .hostUnregister chunk.start)
      else
        let (result, calls) :=
          registerChunks answer span remaining (index + 1) (registered ++ [span index])
        (result, .hostRegister (span index) :: calls)

def seamChunk (raw : Option (Option Int)) (region : SharedOffloadRegion) : Nat :=
  alignedChunk (configuredChunk raw) region.rowStride

def numChunks (raw : Option (Option Int)) (region : SharedOffloadRegion) : Nat :=
  cdiv region.totalSizeBytes (seamChunk raw region)

def regionChunk (raw : Option (Option Int)) (region : SharedOffloadRegion) : Nat → Span :=
  chunkSpan region.basePtr region.totalSizeBytes (seamChunk raw region)

def pinMmapRegion (cudaAlike : Bool) (raw : Option (Option Int)) (answer : Nat → Int)
    (region : SharedOffloadRegion) : SharedOffloadRegion × List CudaCall :=
  if cudaAlike then
    match registerChunks answer (regionChunk raw region) (numChunks raw region) 0 [] with
    | (none, calls) => (region, calls)
    | (some registered, calls) =>
        ({ region with registeredChunks := registered, isPinned := true }, calls)
  else (region, [])

/-- The spans follow one another from `first` to `last`, none of them empty. -/
def Tiles (first last : Nat) : List Span → Prop
  | [] => first = last
  | span :: rest => span.start = first ∧ 0 < span.size ∧ Tiles span.stop last rest

section Loop

variable {answer : Nat → Int} {span : Nat → Span}

theorem register_all (remaining index : Nat) (registered : List Span)
    (accepted : ∀ i, index ≤ i → i < index + remaining → answer i = 0) :
    registerChunks answer span remaining index registered =
      (some (registered ++ (List.range' index remaining).map span),
        (List.range' index remaining).map fun i => .hostRegister (span i)) := by
  induction remaining generalizing index registered with
  | zero => simp [registerChunks]
  | succ remaining ih =>
      unfold registerChunks
      rw [if_neg (not_not.mpr (accepted index le_rfl (by omega))),
        ih (index + 1) (registered ++ [span index]) fun i low high =>
          accepted i (by omega) (by omega)]
      simp [List.range'_succ]

/-- A rejected chunk is followed by the release of those before it, the last one first. -/
theorem register_failed (remaining index : Nat) (registered : List Span) {failed : Nat}
    (low : index ≤ failed) (high : failed < index + remaining) (rejected : answer failed ≠ 0)
    (accepted : ∀ i, index ≤ i → i < failed → answer i = 0) :
    registerChunks answer span remaining index registered =
      (none, (List.range' index (failed - index)).map (fun i => .hostRegister (span i)) ++
        .hostRegister (span failed) :: .getLastError ::
          (registered ++ (List.range' index (failed - index)).map span).reverse.map
            fun chunk => .hostUnregister chunk.start) := by
  induction remaining generalizing index registered with
  | zero => omega
  | succ remaining ih =>
      unfold registerChunks
      by_cases here : index = failed
      · subst here
        rw [if_pos rejected]
        simp
      · have later : failed - index = failed - (index + 1) + 1 := by omega
        rw [if_neg (not_not.mpr (accepted index le_rfl (by omega))),
          ih (index + 1) (registered ++ [span index]) (by omega) (by omega) fun i low high =>
            accepted i (by omega) high, later, List.range'_succ]
        simp

theorem register_result (count : Nat) :
    (∃ registered calls, registerChunks answer span count 0 [] = (some registered, calls) ∧
        registered = (List.range' 0 count).map span) ∨
      ∃ calls, registerChunks answer span count 0 [] = (none, calls) := by
  by_cases accepted : ∀ i < count, answer i = 0
  · left
    rw [register_all count 0 [] fun i _ high => accepted i (by omega)]
    exact ⟨_, _, rfl, List.nil_append _⟩
  · right
    push Not at accepted
    have first := Nat.find_spec accepted
    have before := fun i => @Nat.find_min _ _ accepted i
    rw [@register_failed _ _ count 0 [] _ (Nat.zero_le _) (by omega) first.2 fun i _ less => by
      by_contra rejected
      exact before i less ⟨less.trans first.1, rejected⟩]
    exact ⟨_, rfl⟩

end Loop

section Seams

variable {basePtr total chunk : Nat}

/-- A chunk starts inside the region exactly when its number is below the count. -/
theorem lt_chunks_iff (positive : 0 < chunk) (index : Nat) :
    index < cdiv total chunk ↔ index * chunk < total := by
  rw [cdiv, Nat.lt_iff_add_one_le, Nat.le_div_iff_mul_le positive, Nat.succ_mul]
  omega

theorem chunks_tile (positive : 0 < chunk) (remaining index : Nat)
    (count : index + remaining = cdiv total chunk) :
    Tiles (basePtr + min (index * chunk) total) (basePtr + total)
      ((List.range' index remaining).map (chunkSpan basePtr total chunk)) := by
  induction remaining generalizing index with
  | zero =>
      have covered := mt (@lt_chunks_iff total chunk positive index).mpr (by omega)
      show basePtr + min (index * chunk) total = basePtr + total
      omega
  | succ remaining ih =>
      have inside := (@lt_chunks_iff total chunk positive index).mp (by omega)
      have next : (chunkSpan basePtr total chunk index).stop =
          basePtr + min ((index + 1) * chunk) total := by
        simp only [chunkSpan, Span.stop, Nat.succ_mul]
        omega
      rw [List.range'_succ, List.map_cons]
      refine ⟨?_, ?_, ?_⟩
      · simp only [chunkSpan]
        omega
      · simp only [chunkSpan]
        omega
      · rw [next]
        exact ih (index + 1) (by omega)

variable {rows stride : Nat}

/-- Every row lies in one chunk. -/
def RowsIntact (basePtr rows stride : Nat) (chunks : List Span) : Prop :=
  ∀ row < rows, ∃ chunk ∈ chunks, (cell basePtr stride row).Within chunk

theorem rows_intact_of_dvd (positive : 0 < chunk) (stride_pos : 0 < stride)
    (divides : stride ∣ chunk) :
    RowsIntact basePtr rows stride ((List.range' 0 (cdiv (rows * stride) chunk)).map
      (chunkSpan basePtr (rows * stride) chunk)) := by
  obtain ⟨perChunk, chunk_eq⟩ := divides
  have some : 0 < perChunk := by
    rcases Nat.eq_zero_or_pos perChunk with none | some
    · rw [none, Nat.mul_zero] at chunk_eq
      omega
    · exact some
  intro row valid
  have start : row / perChunk * chunk ≤ row * stride := by
    calc
      row / perChunk * chunk = row / perChunk * perChunk * stride := by rw [chunk_eq]; ring
      _ ≤ row * stride := Nat.mul_le_mul_right stride (Nat.div_mul_le_self row perChunk)
  have stop : (row + 1) * stride ≤ (row / perChunk + 1) * chunk := by
    have next : row + 1 ≤ (row / perChunk + 1) * perChunk := by
      rw [Nat.succ_mul]
      exact Nat.lt_div_mul_add some
    calc
      (row + 1) * stride ≤ (row / perChunk + 1) * perChunk * stride :=
        Nat.mul_le_mul_right stride next
      _ = (row / perChunk + 1) * chunk := by rw [chunk_eq]; ring
  have last : (row + 1) * stride ≤ rows * stride := Nat.mul_le_mul_right stride valid
  have inside : row * stride < rows * stride := Nat.mul_lt_mul_of_pos_right valid stride_pos
  refine ⟨_, List.mem_map_of_mem (List.mem_range'_1.mpr ⟨Nat.zero_le (row / perChunk), ?_⟩), ?_⟩
  · rw [Nat.zero_add, lt_chunks_iff positive]
    omega
  · constructor
    · exact Nat.add_le_add_left start basePtr
    · rw [cell_stop]
      simp only [chunkSpan, Span.stop]
      rw [Nat.succ_mul (row / perChunk)] at stop
      omega

theorem rows_intact_of_short (positive : 0 < chunk) (stride_pos : 0 < stride)
    (short : rows * stride ≤ chunk) :
    RowsIntact basePtr rows stride ((List.range' 0 (cdiv (rows * stride) chunk)).map
      (chunkSpan basePtr (rows * stride) chunk)) := by
  intro row valid
  have some : 0 < rows * stride := Nat.mul_pos (Nat.zero_lt_of_lt valid) stride_pos
  refine ⟨_, List.mem_map_of_mem (List.mem_range'_1.mpr ⟨le_refl 0, ?_⟩), ?_⟩
  · rw [Nat.zero_add, lt_chunks_iff positive, Nat.zero_mul]
    exact some
  · have whole : chunkSpan basePtr (rows * stride) chunk 0 = ⟨basePtr, rows * stride⟩ := by
      simp [chunkSpan, short]
    rw [whole]
    exact cell_within basePtr stride valid le_rfl

/-- No row is cut just when the stride divides the chunk or one chunk holds all rows. -/
theorem rows_intact_iff (positive : 0 < chunk) (stride_pos : 0 < stride) :
    RowsIntact basePtr rows stride ((List.range' 0 (cdiv (rows * stride) chunk)).map
      (chunkSpan basePtr (rows * stride) chunk)) ↔ stride ∣ chunk ∨ rows * stride ≤ chunk := by
  constructor
  · intro intact
    by_contra cut
    rw [not_or, not_le] at cut
    obtain ⟨indivisible, long⟩ := cut
    -- the row that the first seam falls into
    have low : chunk / stride * stride ≤ chunk := Nat.div_mul_le_self chunk stride
    have high : chunk < (chunk / stride + 1) * stride := by
      rw [Nat.succ_mul]
      exact Nat.lt_div_mul_add stride_pos
    have valid : chunk / stride < rows := by
      by_contra more
      have := Nat.mul_le_mul_right stride (not_lt.mp more)
      omega
    obtain ⟨span, member, within⟩ := intact _ valid
    obtain ⟨index, _, rfl⟩ := List.mem_map.mp member
    obtain ⟨starts, stops⟩ := within
    rw [cell_stop] at stops
    simp only [chunkSpan, cell, Span.stop] at starts stops
    cases index with
    | zero =>
        simp only [Nat.zero_mul, Nat.add_zero] at stops
        omega
    | succ index =>
        rw [Nat.succ_mul] at starts
        have exact : chunk / stride * stride = chunk := by omega
        exact indivisible ⟨chunk / stride, by rw [Nat.mul_comm]; exact exact.symm⟩
  · intro fits
    rcases fits with divides | short
    · exact rows_intact_of_dvd positive stride_pos divides
    · exact rows_intact_of_short positive stride_pos short

end Seams

section Pinning

variable {cudaAlike : Bool} {raw : Option (Option Int)} {answer : Nat → Int}
  {region : SharedOffloadRegion}

theorem configured_chunk_ge (raw : Option (Option Int)) :
    64 * mebibyte ≤ configuredChunk raw := by
  unfold configuredChunk mebibyte hugePage
  have low := le_max_left (64 * (1024 ^ 2 : Nat) : Int)
    (min (chunkGb raw * 1024 ^ 3) (512 * 1024 ^ 3))
  generalize max (64 * (1024 ^ 2 : Nat) : Int) _ = clamped at low ⊢
  norm_num at low ⊢
  omega

/-- The strides the code aligns its seams to. -/
def Alignable (raw : Option (Option Int)) (rowStride : Nat) : Prop :=
  rowStride < configuredChunk raw ∧ rowStride % hugePage = 0 ∧
    64 * mebibyte ≤ configuredChunk raw / rowStride * rowStride

theorem seam_chunk_dvd (alignable : Alignable raw region.rowStride) :
    (region.rowStride : Nat) ∣ seamChunk raw region := by
  obtain ⟨less, huge, big⟩ := alignable
  unfold seamChunk alignedChunk
  rw [if_pos ⟨region.rowStride.property.1, less, huge⟩]
  simp only [if_pos big]
  exact Nat.dvd_mul_left _ _

theorem seam_chunk_pos (raw : Option (Option Int)) (region : SharedOffloadRegion) :
    0 < seamChunk raw region := by
  have big := configured_chunk_ge raw
  have some : 0 < 64 * mebibyte := by decide
  unfold seamChunk alignedChunk
  split
  · simp only
    split
    · omega
    · omega
  · omega

/-- A pinned region that came unpinned holds all its chunks. -/
theorem pinned_chunks (unpinned : region.isPinned = false)
    (pinned : (pinMmapRegion cudaAlike raw answer region).1.isPinned = true) :
    (pinMmapRegion cudaAlike raw answer region).1.registeredChunks =
      (List.range' 0 (numChunks raw region)).map (regionChunk raw region) := by
  unfold pinMmapRegion at pinned ⊢
  cases cudaAlike with
  | false =>
      rw [if_neg Bool.false_ne_true, unpinned] at pinned
      cases pinned
  | true =>
      rw [if_pos rfl] at pinned ⊢
      rcases @register_result answer (regionChunk raw region) (numChunks raw region) with
        ⟨registered, calls, done, all⟩ | ⟨calls, failed⟩
      · rw [done]
        exact all
      · rw [failed, unpinned] at pinned
        cases pinned

/-- The calls of a registration whose chunk `failed` is rejected. -/
def rolledBack (raw : Option (Option Int)) (region : SharedOffloadRegion) (failed : Nat) :
    List CudaCall :=
  (List.range' 0 failed).map (fun index => .hostRegister (regionChunk raw region index)) ++
    .hostRegister (regionChunk raw region failed) :: .getLastError ::
      ((List.range' 0 failed).map (regionChunk raw region)).reverse.map
        fun chunk => .hostUnregister chunk.start

theorem failed_rolls_back {failed : Nat} (tried : failed < numChunks raw region)
    (rejected : answer failed ≠ 0) (accepted : ∀ index < failed, answer index = 0) :
    pinMmapRegion true raw answer region = (region, rolledBack raw region failed) := by
  unfold pinMmapRegion rolledBack
  rw [if_pos rfl, register_failed (numChunks raw region) 0 [] (Nat.zero_le failed) (by omega)
    rejected fun index _ less => accepted index less]
  rfl

end Pinning

/-- A pinned region is tiled by its chunks. No row is cut just when the stride divides the
chunk or one chunk holds the region, and so for every stride the code aligns to. When a
chunk is rejected, those before it are released in reverse order and nothing is pinned. -/
theorem pinned_chunks_tile (raw : Option (Option Int)) (basePtr numBlocks : Nat)
    (rowStride : RowStride) (answer : Nat → Int) :
    let region := SharedOffloadRegion.new basePtr numBlocks rowStride
    (∀ cudaAlike, (pinMmapRegion cudaAlike raw answer region).1.isPinned = true →
      Tiles basePtr (basePtr + region.totalSizeBytes)
          (pinMmapRegion cudaAlike raw answer region).1.registeredChunks ∧
        (RowsIntact basePtr numBlocks rowStride
            (pinMmapRegion cudaAlike raw answer region).1.registeredChunks ↔
          (rowStride : Nat) ∣ seamChunk raw region ∨
            region.totalSizeBytes ≤ seamChunk raw region) ∧
        (Alignable raw rowStride → RowsIntact basePtr numBlocks rowStride
          (pinMmapRegion cudaAlike raw answer region).1.registeredChunks)) ∧
      ∀ failed < numChunks raw region, answer failed ≠ 0 →
        (∀ index < failed, answer index = 0) →
          pinMmapRegion true raw answer region = (region, rolledBack raw region failed) := by
  intro region
  have positive := seam_chunk_pos raw region
  constructor
  · intro cudaAlike pinned
    rw [pinned_chunks rfl pinned]
    have tiles := @chunks_tile basePtr region.totalSizeBytes _ positive
      (numChunks raw region) 0 (Nat.zero_add _)
    have intact := @rows_intact_iff basePtr _ numBlocks _ positive rowStride.property.1
    rw [Nat.zero_mul, Nat.zero_min, Nat.add_zero] at tiles
    refine ⟨tiles, intact, ?_⟩
    intro alignable
    exact intact.mpr (.inl (seam_chunk_dvd alignable))
  · intro failed tried rejected accepted
    exact failed_rolls_back tried rejected accepted

/-- Rows of three pages in a region larger than the smallest chunk of `64` MiB. -/
def pagedRegion : SharedOffloadRegion := .new 0 5462 ⟨12288, by decide⟩

/-- The region is pinned, and the row across the first seam lies in no chunk. -/
theorem paged_row_cut : (pinMmapRegion true (some (some 0)) (fun _ => 0) pagedRegion).1.isPinned ∧
    ¬RowsIntact 0 5462 12288
      (pinMmapRegion true (some (some 0)) (fun _ => 0) pagedRegion).1.registeredChunks := by
  have pinned :
      (pinMmapRegion true (some (some 0)) (fun _ => 0) pagedRegion).1.isPinned = true := by
    unfold pinMmapRegion
    rw [if_pos rfl, register_all _ _ _ fun _ _ _ => rfl]
  refine ⟨pinned, ?_⟩
  rw [pinned_chunks rfl pinned]
  have intact := @rows_intact_iff 0 _ 5462 _ (seam_chunk_pos (some (some 0)) pagedRegion)
    (show 0 < 12288 by omega)
  intro whole
  have chunk : seamChunk (some (some 0)) pagedRegion = 67108864 := by decide +kernel
  rcases intact.mp whole with divides | short
  · rw [chunk] at divides
    revert divides
    decide
  · rw [chunk] at short
    omega

/-- Rows of 2 MiB in the same chunks are kept whole. -/
theorem huge_rows_intact : RowsIntact 4096 100 2097152
    (pinMmapRegion true (some (some 0)) (fun _ => 0)
      (.new 4096 100 ⟨2097152, by decide⟩)).1.registeredChunks := by
  have pinned : (pinMmapRegion true (some (some 0)) (fun _ => 0)
      (.new 4096 100 ⟨2097152, by decide⟩)).1.isPinned = true := by
    decide +kernel
  have chunk : configuredChunk (some (some 0)) = 67108864 := by decide +kernel
  apply ((pinned_chunks_tile (some (some 0)) 4096 100 ⟨2097152, by decide⟩ fun _ => 0).1 true
    pinned).2.2
  unfold Alignable
  rw [chunk]
  decide

end KvOffload.RegionPinning
