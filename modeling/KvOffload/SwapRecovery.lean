import KvOffload.Base
import KvOffload.SpanTransfers

/-!
# Recovery of rejected swaps

The dispatcher around the batch copy op. A batch that raises may have copied any of its
descriptors; the whole chunk is then copied again one by one, each copy with an explicit
direction when the plain one is rejected, and in two parts at a registration seam when that
is rejected too. What the driver answers is given by the number of the call. Log records,
the queries made only for them, and the synchronisation of the stream are left out.
-/

namespace KvOffload.SwapRecovery

open KvOffload KvOffload.Base KvOffload.SpanTransfers

set_option autoImplicit false

/-- A rejected batch has copied the descriptors it says. -/
inductive BatchAnswer where
  | copied
  | raised (done : Nat → Bool)

/-- A rejected copy, or one that raises, may have left any bytes in its target. -/
inductive CopyAnswer (Byte : Type) where
  | copied
  | rejected (rc : { rc : Int // rc ≠ 0 }) (left : Nat → Byte)
  | raised (left : Nat → Byte)

/-- The answers to the calls; an attribute query that fails has no range start. -/
structure Driver (Byte : Type) where
  swapBlocksBatch : Nat → BatchAnswer
  memcpy : Nat → CopyAnswer Byte
  memType : Nat → Nat → Nat
  rangeStart : Nat → Nat → Option Nat

structure SwapDiag (Byte : Type) where
  sticky : Bool
  memory : Nat → Byte
  calls : Nat

def probeMax : Nat := 48

variable {Byte : Type}

namespace SwapDiag

def written (diag : SwapDiag Byte) (memory : Nat → Byte) : SwapDiag Byte :=
  { diag with memory := memory, calls := diag.calls + 1 }

def queried (diag : SwapDiag Byte) : SwapDiag Byte := diag.written diag.memory

end SwapDiag

/-- The descriptors that were copied before the batch raised. -/
def copiedOf (done : Nat → Bool) (batch : List Transfer) : List Transfer :=
  (batch.zipIdx.filter fun entry => done entry.2).map Prod.fst

/-- `swapper`; `false` when it raises. -/
def swapBatch (driver : Driver Byte) (batch : List Transfer) (diag : SwapDiag Byte) :
    Bool × SwapDiag Byte :=
  match driver.swapBlocksBatch diag.calls with
  | .copied => (true, diag.written (batch.foldl copyOver diag.memory))
  | .raised done => (false, diag.written ((copiedOf done batch).foldl copyOver diag.memory))

/-- One copy call of the driver and its return code; none when the call raises. -/
def cuMemcpy (driver : Driver Byte) (entry : Transfer) (diag : SwapDiag Byte) :
    Option Int × SwapDiag Byte :=
  match driver.memcpy diag.calls with
  | .copied => (some 0, diag.written (copyOver diag.memory entry))
  | .rejected rc left => (some rc, diag.written (scribble diag.memory left entry))
  | .raised left => (none, diag.written (scribble diag.memory left entry))

/-- The memory types of both ends. -/
def classify (driver : Driver Byte) (entry : Transfer) (diag : SwapDiag Byte) :
    (Nat × Nat) × SwapDiag Byte :=
  ((driver.memType diag.calls entry.src, driver.memType (diag.calls + 1) entry.dst),
    diag.queried.queried)

/-- The end that is host memory: a memory type of one. -/
def hostPointer (dstMemType : Nat) (entry : Transfer) : Nat :=
  if dstMemType = 1 then entry.dst else entry.src

/-- Where the second of two registered ranges under the host span starts. -/
def probeRegistration (driver : Driver Byte) (dstMemType : Nat) (entry : Transfer)
    (diag : SwapDiag Byte) : Option Nat × SwapDiag Byte :=
  let pointer := hostPointer dstMemType entry
  let boundary :=
    match driver.rangeStart diag.calls pointer,
        driver.rangeStart (diag.calls + 1) (pointer + entry.size - 1) with
    | some first, some last => if first ≠ last then some last else none
    | _, _ => none
  (boundary, diag.queried.queried)

/-- Both parts are tried, whatever becomes of the first. -/
def splitRetry (driver : Driver Byte) (dstMemType : Nat) (entry : Transfer) (boundary : Nat)
    (diag : SwapDiag Byte) : Except PyError (Bool × SwapDiag Byte) :=
  let first : Int := boundary - hostPointer dstMemType entry
  let second : Int := entry.size - first
  if first ≤ 0 ∨ second ≤ 0 then .ok (false, diag)
  else
    let head : Transfer := ⟨entry.src, entry.dst, first.toNat⟩
    let tail : Transfer :=
      if dstMemType = 1 then ⟨entry.src + first.toNat, boundary, second.toNat⟩
      else ⟨boundary, entry.dst + first.toNat, second.toNat⟩
    match cuMemcpy driver head diag with
    | (none, _) => .error .exception
    | (some rc1, diag) =>
        match cuMemcpy driver tail diag with
        | (none, _) => .error .exception
        | (some rc2, diag) => .ok (decide (rc1 = 0 ∧ rc2 = 0), diag)

/-- The copy with an explicit direction, `-1` when it raises; none between other types. -/
def explicitCopy (driver : Driver Byte) (memTypes : Nat × Nat) (entry : Transfer)
    (diag : SwapDiag Byte) : Option Int × SwapDiag Byte :=
  if memTypes = (2, 1) ∨ memTypes = (1, 2) then
    let (rc, diag) := cuMemcpy driver entry diag
    (some (rc.getD (-1)), diag)
  else (none, diag)

/-- The body of `_run_per_entry`'s loop. -/
def runEntry (driver : Driver Byte) (splitEnabled : Bool) (entry : Transfer)
    (diag : SwapDiag Byte) : Except PyError (SwapDiag Byte) :=
  match cuMemcpy driver entry diag with
  | (none, _) => .error .exception
  | (some rc, diag) =>
      if rc = 0 then .ok diag
      else
        let (memTypes, diag) := classify driver entry diag
        let (explicit, diag) := explicitCopy driver memTypes entry diag
        if explicit = some 0 then .ok diag
        else
          match probeRegistration driver memTypes.2 entry diag with
          | (none, _) => .error .runtimeError
          | (some boundary, diag) =>
              if boundary ≠ 0 ∧ splitEnabled then do
                let (recovered, diag) ← splitRetry driver memTypes.2 entry boundary diag
                if recovered then .ok diag else .error .runtimeError
              else .error .runtimeError

def runPerEntry (driver : Driver Byte) (splitEnabled : Bool) :
    List Transfer → SwapDiag Byte → Except PyError (SwapDiag Byte)
  | [], diag => .ok diag
  | entry :: rest, diag => do
      let diag ← runEntry driver splitEnabled entry diag
      runPerEntry driver splitEnabled rest diag

/-- Single descriptors through the batch op until one is rejected. -/
def probeEntries (driver : Driver Byte) : List Transfer → SwapDiag Byte → SwapDiag Byte
  | [], diag => diag
  | entry :: rest, diag =>
      match swapBatch driver [entry] diag with
      | (true, diag) => probeEntries driver rest diag
      | (false, diag) => diag

def recover (driver : Driver Byte) (splitEnabled : Bool) (chunk : List Transfer)
    (diag : SwapDiag Byte) : Except PyError (SwapDiag Byte) := do
  let diag ← runPerEntry driver splitEnabled chunk
    (probeEntries driver (chunk.take probeMax) diag)
  .ok { diag with sticky := true }

def swapChunk (driver : Driver Byte) (splitEnabled : Bool) (chunk : List Transfer)
    (diag : SwapDiag Byte) : Except PyError (SwapDiag Byte) :=
  match swapBatch driver chunk diag with
  | (true, diag) => .ok diag
  | (false, diag) => recover driver splitEnabled chunk diag

def swapChunks (driver : Driver Byte) (splitEnabled : Bool) :
    List (List Transfer) → SwapDiag Byte → Except PyError (SwapDiag Byte)
  | [], diag => .ok diag
  | chunk :: rest, diag => do
      let diag ← swapChunk driver splitEnabled chunk diag
      swapChunks driver splitEnabled rest diag

/-- `range(0, n, cap)`. -/
def swapOffsets (count cap : Nat) : List Nat := List.range' 0 ((count + cap - 1) / cap) cap

def chunkAt (cap : Nat) (entries : List Transfer) (offset : Nat) : List Transfer :=
  (entries.take (min (offset + cap) entries.length)).drop offset

/-- What `dispatcher` returns around the batch op. -/
def wrapped (driver : Driver Byte) (splitEnabled : Bool) (cap : Nat) (entries : List Transfer)
    (diag : SwapDiag Byte) : Except PyError (SwapDiag Byte) :=
  if diag.sticky then runPerEntry driver splitEnabled entries diag
  else swapChunks driver splitEnabled
    ((swapOffsets entries.length cap).map (chunkAt cap entries)) diag

variable {driver : Driver Byte} {splitEnabled : Bool} {diag after : SwapDiag Byte}

@[simp] theorem queried_memory (diag : SwapDiag Byte) : diag.queried.memory = diag.memory := rfl

@[simp] theorem written_memory (diag : SwapDiag Byte) (memory : Nat → Byte) :
    (diag.written memory).memory = memory := rfl

theorem copied_of_subset (done : Nat → Bool) (batch : List Transfer) :
    copiedOf done batch ⊆ batch := by
  intro transfer member
  obtain ⟨entry, kept, rfl⟩ := List.mem_map.mp member
  exact List.fst_mem_of_mem_zipIdx (List.mem_of_mem_filter kept)

theorem swap_batch_frames (driver : Driver Byte) (batch : List Transfer) (diag : SwapDiag Byte) :
    Frames batch diag.memory (swapBatch driver batch diag).2.memory := by
  unfold swapBatch
  split
  · exact copies_frame batch (List.Subset.refl batch) diag.memory
  · exact copies_frame _ (copied_of_subset _ batch) diag.memory

theorem swap_batch_fills {batch : List Transfer} (separate : Separate batch)
    (swapped : swapBatch driver batch diag = (true, after)) :
    Fills batch diag.memory after.memory := by
  unfold swapBatch at swapped
  split at swapped
  · cases swapped
    exact copies_fill separate diag.memory
  · cases swapped

theorem memcpy_frames (driver : Driver Byte) (entry : Transfer) (diag : SwapDiag Byte) :
    Frames [entry] diag.memory (cuMemcpy driver entry diag).2.memory := by
  unfold cuMemcpy
  split
  · exact (copy_over_fills entry diag.memory).frames
  · exact scribble_frames _ _ entry
  · exact scribble_frames _ _ entry

theorem memcpy_fills {entry : Transfer}
    (copied : cuMemcpy driver entry diag = (some 0, after)) :
    Fills [entry] diag.memory after.memory := by
  unfold cuMemcpy at copied
  split at copied
  · cases copied
    exact copy_over_fills entry diag.memory
  · rename_i rc left _
    simp only [Prod.mk.injEq, Option.some.injEq] at copied
    exact absurd copied.1 rc.property
  · cases copied

theorem explicit_copy_frames (memTypes : Nat × Nat) (entry : Transfer) (diag : SwapDiag Byte) :
    Frames [entry] diag.memory (explicitCopy driver memTypes entry diag).2.memory := by
  unfold explicitCopy
  split
  · exact memcpy_frames driver entry diag
  · exact frames_refl _ _

theorem explicit_copy_fills {memTypes : Nat × Nat} {entry : Transfer}
    (copied : explicitCopy driver memTypes entry diag = (some 0, after)) :
    Fills [entry] diag.memory after.memory := by
  unfold explicitCopy at copied
  split at copied
  · cases answered : cuMemcpy driver entry diag with
    | mk rc left =>
        simp only [answered, Prod.mk.injEq, Option.some.injEq] at copied
        obtain ⟨zero, rfl⟩ := copied
        cases rc with
        | none => cases zero
        | some code =>
            obtain rfl : code = 0 := zero
            exact memcpy_fills answered
  · cases copied

theorem split_retry_fills {dstMemType : Nat} {entry : Transfer} {boundary : Nat}
    (separate : Separate [entry])
    (split : splitRetry driver dstMemType entry boundary diag = .ok (true, after)) :
    Fills [entry] diag.memory after.memory := by
  unfold splitRetry at split
  simp only at split
  split at split
  · cases split
  · rename_i proper
    rw [not_or, not_le, not_le] at proper
    generalize first_eq : (boundary : Int) - hostPointer dstMemType entry = first at split proper
    obtain ⟨early, firstNat⟩ : ∃ early : Nat, first = early :=
      ⟨_, (Int.toNat_of_nonneg proper.1.le).symm⟩
    obtain ⟨late, lateNat⟩ : ∃ late : Nat, (entry.size : Int) - first = late :=
      ⟨_, (Int.toNat_of_nonneg proper.2.le).symm⟩
    have whole : entry = ⟨entry.src, entry.dst, early + late⟩ := by
      have sizes : entry.size = early + late := by omega
      rw [← sizes]
    have tail : (if dstMemType = 1 then Transfer.mk (entry.src + early) boundary late
        else ⟨boundary, entry.dst + early, late⟩) =
          ⟨entry.src + early, entry.dst + early, late⟩ := by
      unfold hostPointer at first_eq
      split
      · rename_i hostIsDst
        rw [if_pos hostIsDst] at first_eq
        congr 1
        omega
      · rename_i hostIsSrc
        rw [if_neg hostIsSrc] at first_eq
        congr 1
        omega
    rw [firstNat, Int.toNat_natCast] at split
    rw [firstNat] at lateNat
    rw [lateNat, Int.toNat_natCast, tail] at split
    rw [whole] at separate ⊢
    cases headCopied : cuMemcpy driver ⟨entry.src, entry.dst, early⟩ diag with
    | mk rc1 middle =>
        simp only [headCopied] at split
        cases rc1 with
        | none => cases split
        | some rc1 =>
            cases tailCopied : cuMemcpy driver ⟨entry.src + early, entry.dst + early, late⟩
                middle with
            | mk rc2 last =>
                simp only [tailCopied] at split
                cases rc2 with
                | none => cases split
                | some rc2 =>
                    simp only [Except.ok.injEq, Prod.mk.injEq, decide_eq_true_eq] at split
                    obtain ⟨⟨rfl, rfl⟩, rfl⟩ := split
                    exact fills_parts separate (memcpy_fills headCopied) (memcpy_fills tailCopied)

/-- An entry that does not raise has been copied in full by the last of its attempts. -/
theorem run_entry_fills {entry : Transfer} (separate : Separate [entry])
    (ran : runEntry driver splitEnabled entry diag = .ok after) :
    Fills [entry] diag.memory after.memory := by
  unfold runEntry at ran
  have plain := memcpy_frames driver entry diag
  cases copied : cuMemcpy driver entry diag with
  | mk rc first =>
      rw [copied] at plain
      simp only [copied] at ran
      cases rc with
      | none => cases ran
      | some rc =>
          simp only at ran plain
          split at ran
          · rename_i zero
            cases ran
            rw [zero] at copied
            exact memcpy_fills copied
          · have classified : (classify driver entry first).2.memory = first.memory := rfl
            generalize classify driver entry first = classes at ran classified
            obtain ⟨memTypes, second⟩ := classes
            simp only at ran classified
            have explicit := @explicit_copy_frames _ driver memTypes entry second
            cases direct : explicitCopy driver memTypes entry second with
            | mk explicitRc third =>
                rw [direct] at explicit
                simp only [direct] at ran explicit
                rw [classified] at explicit
                split at ran
                · rename_i zero
                  cases ran
                  rw [zero] at direct
                  have fills := explicit_copy_fills direct
                  rw [classified] at fills
                  exact fills_again separate plain fills
                · have probed : (probeRegistration driver memTypes.2 entry third).2.memory =
                      third.memory := rfl
                  generalize probeRegistration driver memTypes.2 entry third = probe
                    at ran probed
                  obtain ⟨found, fourth⟩ := probe
                  cases found with
                  | none => cases ran
                  | some boundary =>
                      simp only at ran probed
                      split at ran
                      · obtain ⟨⟨recovered, last⟩, split, done⟩ := bind_eq_ok.mp ran
                        cases recovered with
                        | false => cases done
                        | true =>
                            cases done
                            have fills := split_retry_fills separate split
                            rw [probed] at fills
                            exact fills_again separate (frames_trans plain explicit) fills
                      · cases ran

theorem run_per_entry_fills {entries : List Transfer} {diag : SwapDiag Byte}
    (separate : Separate entries)
    (ran : runPerEntry driver splitEnabled entries diag = .ok after) :
    Fills entries diag.memory after.memory := by
  induction entries generalizing diag with
  | nil =>
      cases ran
      exact fills_nil _
  | cons entry rest ih =>
      obtain ⟨middle, first, later⟩ := bind_eq_ok.mp ran
      have whole : Separate ([entry] ++ rest) := separate
      exact fills_append whole (run_entry_fills (separate_left whole) first)
        (ih (separate_right whole) later)

theorem probe_entries_frames (driver : Driver Byte) (entries : List Transfer)
    (diag : SwapDiag Byte) :
    Frames entries diag.memory (probeEntries driver entries diag).memory := by
  induction entries generalizing diag with
  | nil => exact frames_refl _ _
  | cons entry rest ih =>
      have first := swap_batch_frames driver [entry] diag
      have wide : [entry] ⊆ entry :: rest :=
        List.cons_subset.mpr ⟨List.mem_cons_self, List.nil_subset _⟩
      unfold probeEntries
      cases swapped : swapBatch driver [entry] diag with
      | mk copied middle =>
          rw [swapped] at first
          cases copied with
          | true =>
              exact frames_trans (frames_mono wide first)
                (frames_mono (List.subset_cons_self _ _) (ih middle))
          | false => exact frames_mono wide first

theorem swap_chunk_fills {chunk : List Transfer} (separate : Separate chunk)
    (swapped : swapChunk driver splitEnabled chunk diag = .ok after) :
    Fills chunk diag.memory after.memory := by
  unfold swapChunk at swapped
  have rejected := swap_batch_frames driver chunk diag
  cases answered : swapBatch driver chunk diag with
  | mk copied middle =>
      rw [answered] at rejected
      simp only [answered] at swapped rejected
      cases copied with
      | true =>
          cases swapped
          exact swap_batch_fills separate answered
      | false =>
          obtain ⟨last, ran, done⟩ := bind_eq_ok.mp swapped
          cases done
          have probed := frames_mono (List.take_subset probeMax chunk)
            (probe_entries_frames driver (chunk.take probeMax) middle)
          have rewritten := run_per_entry_fills separate ran
          exact fills_again separate (frames_trans rejected probed) rewritten

theorem swap_chunks_fill {chunks : List (List Transfer)} {diag : SwapDiag Byte}
    (separate : Separate chunks.flatten)
    (swapped : swapChunks driver splitEnabled chunks diag = .ok after) :
    Fills chunks.flatten diag.memory after.memory := by
  induction chunks generalizing diag with
  | nil =>
      cases swapped
      exact fills_nil _
  | cons chunk rest ih =>
      obtain ⟨middle, first, later⟩ := bind_eq_ok.mp swapped
      rw [List.flatten_cons] at separate ⊢
      exact fills_append separate (swap_chunk_fills (separate_left separate) first)
        (ih (separate_right separate) later)

/-- The first offsets cut off the first entries. -/
theorem chunks_take (cap : Nat) (entries : List Transfer) (count : Nat) :
    ((List.range' 0 count cap).map (chunkAt cap entries)).flatten =
      entries.take (count * cap) := by
  induction count with
  | zero => simp
  | succ count ih =>
      rw [List.range'_concat, List.map_append, List.flatten_append, ih, zero_add]
      have next : chunkAt cap entries (cap * count) =
          (entries.drop (count * cap)).take cap := by
        unfold chunkAt
        rw [← List.take_eq_take_min, List.drop_take, Nat.mul_comm count cap]
        congr 1
        omega
      rw [List.map_singleton, List.flatten_singleton, next, Nat.succ_mul, List.take_add]

theorem chunks_cover {cap : Nat} (positive : 0 < cap) (entries : List Transfer) :
    ((swapOffsets entries.length cap).map (chunkAt cap entries)).flatten = entries := by
  unfold swapOffsets
  rw [chunks_take, List.take_of_length_le]
  have whole := Nat.div_add_mod (entries.length + cap - 1) cap
  have rest := Nat.mod_lt (entries.length + cap - 1) positive
  rw [Nat.mul_comm] at whole
  omega

theorem wrapped_fills {cap : Nat} (positive : 0 < cap) {entries : List Transfer}
    (separate : Separate entries)
    (returned : wrapped driver splitEnabled cap entries diag = .ok after) :
    Fills entries diag.memory after.memory := by
  unfold wrapped at returned
  split at returned
  · exact run_per_entry_fills separate returned
  · have cover := chunks_cover positive entries
    rw [← cover] at separate
    have fills := swap_chunks_fill separate returned
    rw [cover] at fills
    exact fills

theorem per_entry_returns (works : ∀ call, driver.memcpy call = .copied)
    (entries : List Transfer) (diag : SwapDiag Byte) :
    ∃ after, runPerEntry driver splitEnabled entries diag = .ok after := by
  induction entries generalizing diag with
  | nil => exact ⟨diag, rfl⟩
  | cons entry rest ih =>
      have first : runEntry driver splitEnabled entry diag =
          .ok (diag.written (copyOver diag.memory entry)) := by
        simp only [runEntry, cuMemcpy, works, if_true]
      obtain ⟨after, later⟩ := ih (diag.written (copyOver diag.memory entry))
      refine ⟨after, ?_⟩
      simp only [runPerEntry, first, ok_bind, later]

/-- With working single copies no answer of the batch op makes a swap raise. -/
theorem swap_returns (works : ∀ call, driver.memcpy call = .copied) (cap : Nat)
    (entries : List Transfer) (diag : SwapDiag Byte) :
    ∃ after, wrapped driver splitEnabled cap entries diag = .ok after := by
  have chunks : ∀ (chunks : List (List Transfer)) (diag : SwapDiag Byte),
      ∃ after, swapChunks driver splitEnabled chunks diag = .ok after := by
    intro chunks
    induction chunks with
    | nil => exact fun diag => ⟨diag, rfl⟩
    | cons chunk rest ih =>
        intro diag
        have first : ∃ middle, swapChunk driver splitEnabled chunk diag = .ok middle := by
          unfold swapChunk
          split
          · exact ⟨_, rfl⟩
          · rename_i rejected _
            obtain ⟨middle, ran⟩ := @per_entry_returns _ _ splitEnabled works chunk
              (probeEntries driver (chunk.take probeMax) rejected)
            exact ⟨_, by simp only [recover, ran, ok_bind]; rfl⟩
        obtain ⟨middle, swapped⟩ := first
        obtain ⟨after, later⟩ := ih middle
        exact ⟨after, by simp only [swapChunks, swapped, ok_bind, later]⟩
  unfold wrapped
  split
  · exact per_entry_returns works entries diag
  · exact chunks _ diag

/-- Whatever the driver answers, a swap raises or leaves every source in its target and
nothing else changed. -/
theorem swap_completes_or_raises (driver : Driver Byte) (splitEnabled : Bool) {cap : Nat}
    (positive : 0 < cap) {entries : List Transfer} (separate : Separate entries)
    (diag : SwapDiag Byte) :
    (∃ after, wrapped driver splitEnabled cap entries diag = .ok after ∧
        (∀ entry ∈ entries, ∀ offset < entry.size,
          after.memory (entry.dst + offset) = diag.memory (entry.src + offset)) ∧
        Frames entries diag.memory after.memory) ∨
      ∃ problem, wrapped driver splitEnabled cap entries diag = .error problem := by
  cases returned : wrapped driver splitEnabled cap entries diag with
  | error problem => exact .inr ⟨problem, rfl⟩
  | ok after =>
      have fills := wrapped_fills positive separate returned
      exact .inl ⟨after, rfl, fills.filled, fills.frames⟩

/-- Addresses as bytes; the batch op raises after its first descriptor, the plain copy of
the second one is rejected and its target starts in another registered range at `205`. -/
def seamDriver : Driver Nat where
  swapBlocksBatch _ := .raised fun index => index = 0
  memcpy call := if call = 3 ∨ call = 6 then .rejected ⟨1, by decide⟩ fun _ => 0 else .copied
  memType _ pointer := if pointer < 200 then 2 else 1
  rangeStart _ pointer := some (if pointer < 205 then 200 else 205)

/-- The straddling descriptor is copied in two parts. -/
theorem seam_swap_completes : ∃ after,
    wrapped seamDriver true 2 [⟨10, 220, 4⟩, ⟨20, 200, 8⟩] ⟨false, id, 0⟩ = .ok after ∧
      after.sticky ∧ (∀ offset < 8, after.memory (200 + offset) = 20 + offset) ∧
      ∀ offset < 4, after.memory (220 + offset) = 10 + offset := by
  have separate : Separate [⟨10, 220, 4⟩, ⟨20, 200, 8⟩] := by
    constructor
    · simp only [List.pairwise_cons, List.mem_singleton, forall_eq, List.not_mem_nil,
        false_implies, implies_true, List.Pairwise.nil, and_true]
      intro byte first second
      have low := first.1
      have high := second.2
      simp only [Transfer.target, ByteSpans.Span.stop] at low high
      omega
    · intro first firstMember second secondMember byte inTarget inSource
      have low := inTarget.1
      have high := inSource.2
      simp only [List.mem_cons, List.not_mem_nil, or_false] at firstMember secondMember
      rcases firstMember with rfl | rfl <;> rcases secondMember with rfl | rfl <;>
        simp only [Transfer.target, Transfer.source, ByteSpans.Span.stop] at low high <;> omega
  have returns : (wrapped seamDriver true 2 [⟨10, 220, 4⟩, ⟨20, 200, 8⟩]
      ⟨false, id, 0⟩).toOption.map SwapDiag.sticky = some true := by
    decide +kernel
  rcases swap_completes_or_raises seamDriver true (show 0 < 2 by omega) separate
    ⟨false, id, 0⟩ with ⟨after, done, filled, _⟩ | ⟨problem, failed⟩
  · rw [done] at returns
    refine ⟨after, done, by simpa [Except.toOption] using returns, ?_, ?_⟩
    · intro offset inside
      exact filled ⟨20, 200, 8⟩ (by simp) offset inside
    · intro offset inside
      exact filled ⟨10, 220, 4⟩ (by simp) offset inside
  · rw [failed] at returns
    cases returns

end KvOffload.SwapRecovery
