import KvOffload.EventRuns
import KvOffload.TransferQueue

/-!
# Runs of the transfers of a worker

A worker stores in one direction and loads in the other. Transfers are submitted and asked
about in any order while both devices complete their copies, and what is reported is what was
copied.
-/

namespace KvOffload.TransferRuns

open KvOffload KvOffload.Base KvOffload.GpuTransfer KvOffload.DeviceResources
open KvOffload.TransferQueue

set_option autoImplicit false

structure CPUOffloadingWorker where
  storeHandler : Direction
  loadHandler : Direction

inductive WorkerCall where
  | submitStore (jobId : JobId) (srcSpec : GPULoadStoreSpec) (dstBlockIds : List Nat)
  | submitLoad (jobId : JobId) (srcBlockIds : List Nat) (dstSpec : GPULoadStoreSpec)
  | getFinished
  | storeCopied (record : Nat)
  | loadCopied (record : Nat)

namespace CPUOffloadingWorker

variable (worker : CPUOffloadingWorker)

def submitStore (jobId : JobId) (srcSpec : GPULoadStoreSpec) (dstBlockIds : List Nat) :
    Except PyError CPUOffloadingWorker := do
  let direction ← worker.storeHandler.submit jobId srcSpec dstBlockIds
  .ok { worker with storeHandler := direction }

def submitLoad (jobId : JobId) (srcBlockIds : List Nat) (dstSpec : GPULoadStoreSpec) :
    Except PyError CPUOffloadingWorker := do
  let direction ← worker.loadHandler.submit jobId dstSpec srcBlockIds
  .ok { worker with loadHandler := direction }

def getFinished : Except QueueError (List TransferResult × CPUOffloadingWorker) := do
  let (stored, storeHandler) ← worker.storeHandler.collect
  let (loaded, loadHandler) ← worker.loadHandler.collect
  .ok (stored ++ loaded, ⟨storeHandler, loadHandler⟩)

def submitted : List JobId :=
  worker.storeHandler.submitted.map Submission.jobId ++
    worker.loadHandler.submitted.map Submission.jobId

def reported : List JobId := worker.storeHandler.reported ++ worker.loadHandler.reported

def apply : WorkerCall → Except QueueError CPUOffloadingWorker
  | .submitStore jobId srcSpec dstBlockIds =>
      (worker.submitStore jobId srcSpec dstBlockIds).mapError .raised
  | .submitLoad jobId srcBlockIds dstSpec =>
      (worker.submitLoad jobId srcBlockIds dstSpec).mapError .raised
  | .getFinished => worker.getFinished.map Prod.snd
  | .storeCopied record => .ok { worker with storeHandler := worker.storeHandler.copied record }
  | .loadCopied record => .ok { worker with loadHandler := worker.loadHandler.copied record }

/-- The scheduler numbers its jobs, and a device completes what it is ready for. -/
def Permitted : WorkerCall → Prop
  | .submitStore jobId _ _ => jobId ∉ worker.submitted
  | .submitLoad jobId _ _ => jobId ∉ worker.submitted
  | .getFinished => True
  | .storeCopied record => worker.storeHandler.device.Ready record
  | .loadCopied record => worker.loadHandler.device.Ready record

/-- A worker that was just made. -/
def start (store load : SingleDirectionOffloadingHandler) (pinMemory nonpinnedFallback : Bool) :
    CPUOffloadingWorker :=
  ⟨{ queue := { handler := store, pinMemory := pinMemory, nonpinnedFallback := nonpinnedFallback } },
    { queue := { handler := load, pinMemory := pinMemory, nonpinnedFallback := nonpinnedFallback } }⟩

end CPUOffloadingWorker

instance (worker : CPUOffloadingWorker) (call : WorkerCall) : Decidable (worker.Permitted call) :=
  match call with
  | .submitStore jobId _ _ => inferInstanceAs (Decidable (jobId ∉ worker.submitted))
  | .submitLoad jobId _ _ => inferInstanceAs (Decidable (jobId ∉ worker.submitted))
  | .getFinished => inferInstanceAs (Decidable True)
  | .storeCopied record =>
      inferInstanceAs (Decidable (worker.storeHandler.device.Ready record))
  | .loadCopied record =>
      inferInstanceAs (Decidable (worker.loadHandler.device.Ready record))

/-- What a direction promises the worker: jobs are reported in the order they were submitted,
only after their copies and as soon as those are complete. Streams, events and the descriptor
arrays of a size are bounded by the most transfers ever in flight; larger transfers make new
arrays. -/
structure Serves (direction : Direction) : Prop where
  order : direction.submitted.map Submission.jobId =
    direction.reported ++ direction.queue.transfers.map Transfer.jobId
  serial : direction.submitted.Pairwise fun earlier later =>
    later.started ∈ direction.device.done → earlier.ended ∈ direction.device.done
  apart : (direction.queue.transfers.map Transfer.stream).Nodup ∧
    (direction.queue.transfers.flatMap fun transfer =>
      [transfer.startEvent, transfer.endEvent]).Nodup ∧
    (direction.queue.transfers.map fun transfer => transfer.buffers.id).Nodup
  room : ∀ transfer ∈ direction.queue.transfers,
    transfer.ops.length ≤ transfer.buffers.capacity
  pools : direction.queue.streamPool.created ≤ direction.peak ∧
    direction.queue.eventPool.created ≤ 2 * direction.peak ∧
    ∀ capacity, 0 < capacity →
      (direction.queue.sets.map Buffers.capacity).count capacity ≤ direction.peak
  copied : ∀ jobId ∈ direction.reported, direction.Copied jobId
  collects : ∃ results after, direction.collect = .ok (results, after) ∧
    ∀ result, result ∈ results ↔ ∃ transfer ∈ direction.queue.transfers,
      direction.Copied transfer.jobId ∧
        result = ⟨transfer.jobId, true, transfer.numBytes⟩
  waits : ∀ jobIds, direction.queue.Waited direction.device jobIds →
    ∀ jobId ∈ jobIds, jobId ∈ direction.submitted.map Submission.jobId →
      direction.Copied jobId
  proceeds : direction.queue.transfers ≠ [] →
    (∃ transfer ∈ direction.queue.transfers, direction.Copied transfer.jobId) ∨
      ∃ record, direction.device.Ready record

section Directions

variable {direction : Direction}

theorem copied_iff (inv : DirectionInv direction) {index : Nat} {entry : Submission}
    (found : direction.submitted[index]? = some entry) :
    direction.Copied entry.jobId ↔ 2 * index + 1 < direction.device.done.card := by
  constructor
  · rintro ⟨other, member, isJob, done⟩
    obtain ⟨place, placed⟩ := List.getElem?_of_mem member
    have same : place = index := by
      obtain ⟨within, _⟩ := List.getElem?_eq_some_iff.mp placed
      refine (List.getElem?_inj ((List.length_map _).symm ▸ within) inv.distinct).mp ?_
      rw [List.getElem?_map, List.getElem?_map, placed, found, Option.map_some, Option.map_some,
        isJob]
    subst same
    rw [(inv.numbered _ other placed).2] at done
    exact (mem_done_iff inv.order _).mp done
  · intro reached
    refine ⟨entry, List.mem_of_getElem? found, rfl, ?_⟩
    rw [(inv.numbered index entry found).2]
    exact (mem_done_iff inv.order _).mpr reached

/-- The jobs in flight are the last that were submitted. -/
theorem submitted_in_flight (inv : DirectionInv direction) {index : Nat} {transfer : Transfer}
    (found : direction.queue.transfers[index]? = some transfer) :
    ∃ entry, direction.submitted[direction.reported.length + index]? = some entry ∧
      entry.jobId = transfer.jobId := by
  have jobs := congrArg (fun ids => ids[direction.reported.length + index]?) inv.jobs
  simp only [List.getElem?_map, List.getElem?_append_right (Nat.le_add_right _ _),
    Nat.add_sub_cancel_left, found, Option.map_some] at jobs
  obtain ⟨entry, isEntry, isJob⟩ := Option.map_eq_some_iff.mp jobs
  exact ⟨entry, isEntry, isJob⟩

theorem query_end_copied (inv : DirectionInv direction) {transfer : Transfer}
    (member : transfer ∈ direction.queue.transfers) :
    direction.device.query transfer.endEvent = true ↔ direction.Copied transfer.jobId := by
  obtain ⟨index, found⟩ := List.getElem?_of_mem member
  obtain ⟨entry, isEntry, isJob⟩ := submitted_in_flight inv found
  rw [query_end_iff inv found, ← isJob, copied_iff inv isEntry]

theorem reported_copied (inv : DirectionInv direction) {jobId : JobId}
    (member : jobId ∈ direction.reported) : direction.Copied jobId := by
  obtain ⟨index, found⟩ := List.getElem?_of_mem member
  obtain ⟨within, _⟩ := List.getElem?_eq_some_iff.mp found
  have jobs := congrArg (fun ids => ids[index]?) inv.jobs
  simp only [List.getElem?_map, List.getElem?_append_left within, found] at jobs
  obtain ⟨entry, isEntry, rfl⟩ := Option.map_eq_some_iff.mp jobs
  have reported := inv.reported_done
  exact (copied_iff inv isEntry).mpr (by omega)

theorem serial_of_inv (inv : DirectionInv direction) :
    direction.submitted.Pairwise fun earlier later =>
      later.started ∈ direction.device.done → earlier.ended ∈ direction.device.done := by
  refine List.pairwise_iff_getElem.mpr fun first second firstBelow secondBelow below started => ?_
  rw [(inv.numbered first _ (List.getElem?_eq_getElem firstBelow)).2]
  rw [(inv.numbered second _ (List.getElem?_eq_getElem secondBelow)).1] at started
  have reached := (mem_done_iff inv.order _).mp started
  exact (mem_done_iff inv.order _).mpr (by omega)

theorem collect_spec (inv : DirectionInv direction) :
    ∃ results after, direction.collect = .ok (results, after) ∧ DirectionInv after ∧
      after.submitted = direction.submitted ∧
      after.reported = direction.reported ++ results.map TransferResult.jobId ∧
      ∀ result, result ∈ results ↔ ∃ transfer ∈ direction.queue.transfers,
        direction.Copied transfer.jobId ∧
          result = ⟨transfer.jobId, true, transfer.numBytes⟩ := by
  obtain ⟨results, queue, ran, left, exactly⟩ :=
    get_finished_spec direction.queue.transfers direction inv rfl
  refine ⟨results, _, ?_, left, rfl, rfl, fun result => ?_⟩
  · have ran : direction.queue.getFinished direction.device = .ok (results, queue) := ran
    show (direction.queue.getFinished direction.device >>= _) = _
    rw [ran]
    rfl
  · rw [exactly, List.mem_map]
    constructor
    · rintro ⟨transfer, member, rfl⟩
      obtain ⟨inFlight, finished⟩ := List.mem_filter.mp member
      exact ⟨transfer, inFlight, (query_end_copied inv inFlight).mp finished, rfl⟩
    · rintro ⟨transfer, inFlight, finished, rfl⟩
      refine ⟨transfer, List.mem_filter.mpr ⟨inFlight, ?_⟩, rfl⟩
      exact (query_end_copied inv inFlight).mpr finished

/-- A job whose event is gone was reported. -/
theorem waited_copied (inv : DirectionInv direction) {jobIds : List JobId}
    (waited : direction.queue.Waited direction.device jobIds) {jobId : JobId}
    (asked : jobId ∈ jobIds)
    (submitted : jobId ∈ direction.submitted.map Submission.jobId) : direction.Copied jobId := by
  rw [inv.jobs] at submitted
  rcases List.mem_append.mp submitted with reported | inFlight
  · exact reported_copied inv reported
  · obtain ⟨transfer, member, rfl⟩ := List.mem_map.mp inFlight
    have listed := (inv.listed transfer.jobId transfer.endEvent).mpr ⟨transfer, member, rfl, rfl⟩
    exact (query_end_copied inv member).mp (waited _ asked _ listed)

theorem proceeds_of_inv (inv : DirectionInv direction) {transfer : Transfer}
    (inFlight : transfer ∈ direction.queue.transfers) :
    direction.Copied transfer.jobId ∨ ∃ record, direction.device.Ready record := by
  by_cases unfinished : direction.device.done.card < direction.device.records
  · exact .inr ⟨_, next_ready inv.order unfinished⟩
  · obtain ⟨index, found⟩ := List.getElem?_of_mem inFlight
    obtain ⟨entry, isEntry, isJob⟩ := submitted_in_flight inv found
    obtain ⟨within, _⟩ := List.getElem?_eq_some_iff.mp isEntry
    have records := inv.records
    rw [← isJob]
    exact .inl ((copied_iff inv isEntry).mpr (by omega))

theorem serves_of_inv (inv : DirectionInv direction) : Serves direction where
  order := inv.jobs
  serial := serial_of_inv inv
  apart := ⟨held_nodup inv.streams, held_nodup inv.events,
    (inv.buffers.nodup_iff.mpr List.nodup_range).of_append_left⟩
  room := inv.fits
  pools := ⟨inv.peaked.2.1, inv.peaked.2.2, inv.sized⟩
  copied _ member := reported_copied inv member
  collects := by
    obtain ⟨results, after, ran, _, _, _, exactly⟩ := collect_spec inv
    exact ⟨results, after, ran, exactly⟩
  waits _ waited _ asked submitted := waited_copied inv waited asked submitted
  proceeds busy := by
    obtain ⟨transfer, member⟩ := List.exists_mem_of_ne_nil _ busy
    rcases proceeds_of_inv inv member with copied | ready
    · exact .inl ⟨transfer, member, copied⟩
    · exact .inr ready

end Directions

structure WorkerInv (worker : CPUOffloadingWorker) : Prop where
  stores : DirectionInv worker.storeHandler
  loads : DirectionInv worker.loadHandler
  distinct : worker.submitted.Nodup

section Steps

variable {worker after : CPUOffloadingWorker} {call : WorkerCall}

theorem submit_inv {direction next : Direction} {jobId : JobId} {gpuSpec : GPULoadStoreSpec}
    {cpuBlockIds : List Nat} (inv : DirectionInv direction)
    (submitted : direction.submit jobId gpuSpec cpuBlockIds = .ok next)
    (fresh : jobId ∉ direction.submitted.map Submission.jobId) :
    DirectionInv next ∧ next.submitted.map Submission.jobId =
      direction.submitted.map Submission.jobId ++ [jobId] := by
  obtain ⟨ops, _, enough, rfl⟩ := submit_ok submitted
  exact ⟨launched_inv inv enough fresh, List.map_append⟩

theorem copied_inv {direction : Direction} {record : Nat} (inv : DirectionInv direction)
    (ready : direction.device.Ready record) : DirectionInv (direction.copied record) := by
  obtain ⟨order, grown⟩ := complete_in_order inv.order ready
  exact { inv with
    order := order
    reported_done := inv.reported_done.trans (grown ▸ Nat.le_succ _) }

theorem start_inv (queue : Queue) (idle : queue.transfers = [])
    (unlisted : queue.transferEvents = OrderedMap.empty) (noStreams : queue.streamPool = {})
    (noEvents : queue.eventPool = {}) (noBuffers : queue.bufferPool = [] ∧ queue.bufferSets = 0) :
    DirectionInv { queue := queue } := by
  refine ⟨start_in_order, rfl, ?_, ?_, List.nodup_nil, le_rfl, ?_, ?_, ?_, ?_, ?_, ?_, ?_, ?_⟩
  · intro index entry found
    cases found
  · show [] = [] ++ queue.transfers.map Transfer.jobId
    rw [idle]
    rfl
  · intro index transfer found
    rw [show ({ queue := queue } : Direction).queue.transfers = [] from idle] at found
    cases found
  · intro jobId event
    show queue.transferEvents.get? jobId = some event ↔ ∃ transfer ∈ queue.transfers, _
    rw [idle, unlisted]
    constructor
    · intro impossible
      cases impossible
    · rintro ⟨_, member, _⟩
      cases member
  · show queue.streamPool.Holds (queue.transfers.map Transfer.stream)
    rw [idle, noStreams]
    exact holds_start
  · show queue.eventPool.Holds (queue.transfers.flatMap _)
    rw [idle, noEvents]
    exact holds_start
  · show ((queue.transfers.map _) ++ queue.bufferPool.map _).Perm (List.range queue.bufferSets)
    rw [idle, noBuffers.1, noBuffers.2]
    exact List.Perm.refl _
  · show ∀ transfer ∈ queue.transfers, _
    rw [idle]
    intro transfer member
    cases member
  · show queue.transfers.length ≤ 0 ∧ queue.streamPool.created ≤ 0 ∧
      queue.eventPool.created ≤ 2 * 0
    rw [idle, noStreams, noEvents]
    exact ⟨le_rfl, le_rfl, le_rfl⟩
  · intro capacity _
    show (queue.sets.map Buffers.capacity).count capacity ≤ 0
    unfold Queue.sets
    rw [idle, noBuffers.1]
    exact le_rfl

theorem get_finished_ok (inv : WorkerInv worker) :
    ∃ results after, worker.getFinished = .ok (results, after) ∧ WorkerInv after ∧
      after.submitted = worker.submitted := by
  obtain ⟨stored, storeHandler, storeRan, storeInv, storeSame, _, _⟩ := collect_spec inv.stores
  obtain ⟨loaded, loadHandler, loadRan, loadInv, loadSame, _, _⟩ := collect_spec inv.loads
  have same : (⟨storeHandler, loadHandler⟩ : CPUOffloadingWorker).submitted =
      worker.submitted := by
    unfold CPUOffloadingWorker.submitted
    rw [storeSame, loadSame]
  refine ⟨stored ++ loaded, ⟨storeHandler, loadHandler⟩, ?_, ⟨storeInv, loadInv, ?_⟩, same⟩
  · unfold CPUOffloadingWorker.getFinished
    rw [storeRan, loadRan]
    rfl
  · rw [same]
    exact inv.distinct

theorem mapError_ok {α : Type} {result : Except PyError α} {value : α}
    (ok : result.mapError QueueError.raised = .ok value) : result = .ok value := by
  cases result with
  | error problem => cases ok
  | ok found =>
      cases ok
      rfl

theorem apply_inv (inv : WorkerInv worker) (permitted : worker.Permitted call)
    (applied : worker.apply call = .ok after) : WorkerInv after := by
  cases call with
  | submitStore jobId srcSpec dstBlockIds =>
      have permitted : jobId ∉ worker.submitted := permitted
      obtain ⟨fresh, _⟩ := not_or.mp (mt List.mem_append.mpr permitted)
      obtain ⟨direction, submitted, same⟩ := bind_eq_ok.mp (mapError_ok applied)
      cases same
      obtain ⟨stores, jobs⟩ := submit_inv inv.stores submitted fresh
      refine ⟨stores, inv.loads, ?_⟩
      have joined := List.nodup_cons.mpr ⟨permitted, inv.distinct⟩
      refine (List.Perm.nodup_iff ?_).mpr joined
      show (direction.submitted.map _ ++ worker.loadHandler.submitted.map _).Perm _
      rw [jobs, List.append_assoc]
      exact List.perm_middle
  | submitLoad jobId srcBlockIds dstSpec =>
      have permitted : jobId ∉ worker.submitted := permitted
      obtain ⟨_, fresh⟩ := not_or.mp (mt List.mem_append.mpr permitted)
      obtain ⟨direction, submitted, same⟩ := bind_eq_ok.mp (mapError_ok applied)
      cases same
      obtain ⟨loads, jobs⟩ := submit_inv inv.loads submitted fresh
      refine ⟨inv.stores, loads, ?_⟩
      have joined := List.nodup_cons.mpr ⟨permitted, inv.distinct⟩
      refine (List.Perm.nodup_iff ?_).mpr joined
      show (worker.storeHandler.submitted.map _ ++ direction.submitted.map _).Perm _
      rw [jobs, ← List.append_assoc]
      exact List.perm_append_singleton _ _
  | getFinished =>
      obtain ⟨results, found, ran, left, _⟩ := get_finished_ok inv
      have applied : worker.getFinished.map Prod.snd = .ok after := applied
      rw [ran] at applied
      cases applied
      exact left
  | storeCopied record =>
      cases applied
      exact ⟨copied_inv inv.stores permitted, inv.loads, inv.distinct⟩
  | loadCopied record =>
      cases applied
      exact ⟨inv.stores, copied_inv inv.loads permitted, inv.distinct⟩

theorem reached_inv {store load : SingleDirectionOffloadingHandler}
    {pinMemory nonpinnedFallback : Bool}
    (reaches : EventRuns.Reaches CPUOffloadingWorker.apply CPUOffloadingWorker.Permitted
      (CPUOffloadingWorker.start store load pinMemory nonpinnedFallback) worker) :
    WorkerInv worker := by
  refine EventRuns.reaches_invariant (fun _ _ _ inv => apply_inv inv) ?_ reaches
  exact ⟨start_inv _ rfl rfl rfl rfl ⟨rfl, rfl⟩, start_inv _ rfl rfl rfl rfl ⟨rfl, rfl⟩,
    List.nodup_nil⟩

end Steps

/-- In every run of a worker both directions keep what they promise, `get_finished` never
raises, and no job is reported twice. -/
theorem transfers_served {store load : SingleDirectionOffloadingHandler}
    {pinMemory nonpinnedFallback : Bool} {worker : CPUOffloadingWorker}
    (reaches : EventRuns.Reaches CPUOffloadingWorker.apply CPUOffloadingWorker.Permitted
      (CPUOffloadingWorker.start store load pinMemory nonpinnedFallback) worker) :
    Serves worker.storeHandler ∧ Serves worker.loadHandler ∧
      (∃ results after, worker.getFinished = .ok (results, after)) ∧
      worker.reported.Nodup := by
  have inv := reached_inv reaches
  obtain ⟨results, after, ran, _, _⟩ := get_finished_ok inv
  refine ⟨serves_of_inv inv.stores, serves_of_inv inv.loads, ⟨results, after, ran⟩, ?_⟩
  refine inv.distinct.sublist ?_
  unfold CPUOffloadingWorker.submitted
  rw [inv.stores.jobs, inv.loads.jobs]
  exact (List.sublist_append_left _ _).append (List.sublist_append_left _ _)

def laneHandler (gpuToCpu : Bool) : SingleDirectionOffloadingHandler where
  gpuTensors := [⟨1000, 16, 16⟩]
  cpuTensors := [⟨5000, 16, 16⟩]
  gpuToCpu := gpuToCpu
  blocksPerChunk := 1
  layerRefsPerGroup := [[⟨0, 16, [], 1, 0⟩]]
  canonicalLayout := false
  blocks_pos := Nat.one_pos
  tensors := by simp

def laneSpec : GPULoadStoreSpec := ⟨[3], [1], [0], rfl, rfl⟩

/-- The third store takes the stream and the arrays of the first, which was reported. The load
is reported while two stores are in flight. -/
def laneCalls : List WorkerCall :=
  [.submitStore 0 laneSpec [0], .submitStore 1 laneSpec [1], .storeCopied 0, .storeCopied 1,
    .getFinished, .submitStore 2 laneSpec [2], .submitLoad 3 [0] laneSpec, .loadCopied 0,
    .loadCopied 1, .getFinished]

theorem lane_transfers_served :
    ∃ worker : CPUOffloadingWorker,
      (Serves worker.storeHandler ∧ Serves worker.loadHandler ∧
        (∃ results after, worker.getFinished = .ok (results, after)) ∧ worker.reported.Nodup) ∧
      worker.reported = [0, 3] ∧
      (worker.storeHandler.queue.transfers.map fun transfer =>
        (transfer.jobId, transfer.stream, transfer.buffers.id)) = [(1, 1, 1), (2, 0, 0)] := by
  have ran : (EventRuns.replay CPUOffloadingWorker.apply CPUOffloadingWorker.Permitted
      (CPUOffloadingWorker.start (laneHandler true) (laneHandler false) true true)
      laneCalls).map (fun worker => (worker.reported,
        worker.storeHandler.queue.transfers.map fun transfer =>
          (transfer.jobId, transfer.stream, transfer.buffers.id))) =
      some ([0, 3], [(1, 1, 1), (2, 0, 0)]) := by decide +kernel
  obtain ⟨worker, reaches, seen⟩ := EventRuns.exists_of_replay ran
  simp only [Prod.mk.injEq] at seen
  exact ⟨worker, transfers_served reaches, seen⟩

end KvOffload.TransferRuns
