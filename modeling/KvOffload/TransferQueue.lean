import KvOffload.DeviceResources
import KvOffload.GpuTransfer

/-!
# Transfers in flight

The two directions of a worker: `transfer_async` gives a transfer a stream, two events and
descriptor arrays, reused where there are any, and makes it wait for the last transfer in
flight. `get_finished` reports the transfers at the front whose copies are complete and gives
their resources back.
-/

namespace KvOffload.TransferQueue

open KvOffload KvOffload.Base KvOffload.GpuTransfer
open KvOffload.DeviceResources

set_option autoImplicit false

/-- What `get_finished` may raise. -/
inductive QueueError where
  | raised (problem : PyError)
  | transferEvents (jobId : JobId)
  deriving DecidableEq

/-- A set of descriptor arrays. -/
structure Buffers where
  id : Nat
  capacity : Nat
  pinned : Bool
  deriving DecidableEq

structure Transfer where
  jobId : JobId
  stream : Nat
  startEvent : Nat
  endEvent : Nat
  numBytes : Nat
  buffers : Buffers
  ops : List CopyOp

/-- The transfer time is left out. -/
structure TransferResult where
  jobId : JobId
  success : Bool
  transferSize : Nat
  deriving DecidableEq

/-- What one direction keeps beside its handler. -/
structure Queue where
  handler : SingleDirectionOffloadingHandler
  pinMemory : Bool := true
  nonpinnedFallback : Bool := true
  transferEvents : OrderedMap JobId Nat := OrderedMap.empty
  transfers : List Transfer := []
  streamPool : Pool := {}
  eventPool : Pool := {}
  bufferPool : List Buffers := []
  bufferSets : Nat := 0
  poolReuseTotal : Nat := 0
  nonpinnedTotal : Nat := 0

abbrev CopyDevice := Device Nat

/-- The largest set of arrays that has room, the first of those; an empty set never counts. -/
def scanFits (need : Nat) : List (Buffers × Nat) → Option Nat × Nat → Option Nat
  | [], best => best.1
  | (buffers, index) :: rest, best =>
      scanFits need rest
        (if need ≤ buffers.capacity ∧ best.2 < buffers.capacity then
          (some index, buffers.capacity) else best)

namespace Queue

variable (queue : Queue)

def bestFit (need : Nat) : Option Nat := scanFits need queue.bufferPool.zipIdx (none, 0)

/-- All sets of descriptor arrays, those in use first. -/
def sets : List Buffers := queue.transfers.map Transfer.buffers ++ queue.bufferPool

/-- The descriptor arrays of a transfer that needs room for `need` copies. -/
def takeBuffers (need : Nat) : Buffers × Queue :=
  match queue.bestFit need with
  | some index =>
      (queue.bufferPool.getD index ⟨0, 0, true⟩, { queue with
        bufferPool := queue.bufferPool.eraseIdx index
        poolReuseTotal := queue.poolReuseTotal + 1 })
  | none =>
      (⟨queue.bufferSets, need, queue.pinMemory && !queue.nonpinnedFallback⟩, { queue with
        bufferSets := queue.bufferSets + 1
        nonpinnedTotal := queue.nonpinnedTotal + if queue.nonpinnedFallback then 1 else 0 })

/-- The record that a new transfer's stream waits for. -/
def lastRecord (device : CopyDevice) : Option Nat :=
  queue.transfers.getLast?.bind fun last => device.latest last.endEvent

/-- The start and the end of a transfer are recorded on its stream. -/
def transferAsync (device : CopyDevice) (jobId : JobId) (gpuSpec : GPULoadStoreSpec)
    (cpuBlockIds : List Nat) : Except PyError (Queue × CopyDevice) := do
  let ops ← queue.handler.transferAsync gpuSpec cpuBlockIds
  let (buffers, buffered) := queue.takeBuffers (queue.handler.estimateMaxCopyOps gpuSpec)
  let (stream, streamPool) := queue.streamPool.take
  let (startEvent, startedPool) := queue.eventPool.take
  let (endEvent, eventPool) := startedPool.take
  let started := device.record startEvent (queue.lastRecord device)
  .ok ({ buffered with
    transferEvents := queue.transferEvents.set jobId endEvent
    transfers := queue.transfers ++ [{
      jobId := jobId
      stream := stream
      startEvent := startEvent
      endEvent := endEvent
      numBytes := (ops.map CopyOp.size).sum
      buffers := buffers
      ops := ops }]
    streamPool := streamPool
    eventPool := eventPool }, started.record endEvent (some device.records))

/-- The front transfer leaves; its time is asked for, which fails before its events are
complete. -/
def retire (device : CopyDevice) (transfer : Transfer) (rest : List Transfer) :
    Except QueueError (TransferResult × Queue) :=
  if device.query transfer.startEvent && device.query transfer.endEvent then
    match queue.transferEvents.get? transfer.jobId with
    | none => .error (.transferEvents transfer.jobId)
    | some _ => .ok (⟨transfer.jobId, true, transfer.numBytes⟩, { queue with
        transfers := rest
        streamPool := queue.streamPool.give transfer.stream
        eventPool := (queue.eventPool.give transfer.endEvent).give transfer.startEvent
        bufferPool := queue.bufferPool ++ [transfer.buffers]
        transferEvents := queue.transferEvents.erase transfer.jobId })
  else .error (.raised .runtimeError)

def getFinishedFrom (device : CopyDevice) :
    List Transfer → Queue → Except QueueError (List TransferResult × Queue)
  | [], queue => .ok ([], queue)
  | transfer :: rest, queue =>
      if device.query transfer.endEvent then do
        let (result, queue) ← queue.retire device transfer rest
        let (results, queue) ← getFinishedFrom device rest queue
        .ok (result :: results, queue)
      else .ok ([], queue)

def getFinished (device : CopyDevice) : Except QueueError (List TransferResult × Queue) :=
  getFinishedFrom device queue.transfers queue

/-- `wait` returns once the events of the jobs are complete. -/
def Waited (device : CopyDevice) (jobIds : List JobId) : Prop :=
  ∀ jobId ∈ jobIds, ∀ event, queue.transferEvents.get? jobId = some event →
    device.query event = true

end Queue

/-- A job with the records of the start and the end of its copies. -/
structure Submission where
  jobId : JobId
  started : Nat
  ended : Nat

/-- A direction with its device. The jobs it was given and those it has reported are kept in
order, as is the most transfers there were in flight. -/
structure Direction where
  queue : Queue
  device : CopyDevice := {}
  submitted : List Submission := []
  reported : List JobId := []
  peak : Nat := 0

namespace Direction

variable (direction : Direction)

def submit (jobId : JobId) (gpuSpec : GPULoadStoreSpec) (cpuBlockIds : List Nat) :
    Except PyError Direction := do
  let (queue, device) ←
    direction.queue.transferAsync direction.device jobId gpuSpec cpuBlockIds
  .ok { direction with
    queue := queue
    device := device
    submitted := direction.submitted ++
      [⟨jobId, direction.device.records, direction.device.records + 1⟩]
    peak := max direction.peak queue.transfers.length }

def collect : Except QueueError (List TransferResult × Direction) := do
  let (results, queue) ← direction.queue.getFinished direction.device
  .ok (results, { direction with
    queue := queue
    reported := direction.reported ++ results.map TransferResult.jobId })

def copied (record : Nat) : Direction :=
  { direction with device := direction.device.complete record }

/-- The copies of a job are complete. -/
def Copied (jobId : JobId) : Prop :=
  ∃ entry ∈ direction.submitted, entry.jobId = jobId ∧ entry.ended ∈ direction.device.done

end Direction

/-- What holds of a direction at any time: of two records a transfer, those of the transfers
in flight are the last. -/
structure DirectionInv (direction : Direction) : Prop where
  order : InOrder direction.device
  records : direction.device.records = 2 * direction.submitted.length
  numbered : ∀ index entry, direction.submitted[index]? = some entry →
    entry.started = 2 * index ∧ entry.ended = 2 * index + 1
  jobs : direction.submitted.map Submission.jobId =
    direction.reported ++ direction.queue.transfers.map Transfer.jobId
  distinct : (direction.submitted.map Submission.jobId).Nodup
  reported_done : 2 * direction.reported.length ≤ direction.device.done.card
  recorded : ∀ index transfer, direction.queue.transfers[index]? = some transfer →
    direction.device.latest transfer.startEvent =
        some (2 * (direction.reported.length + index)) ∧
      direction.device.latest transfer.endEvent =
        some (2 * (direction.reported.length + index) + 1)
  listed : ∀ jobId event, direction.queue.transferEvents.get? jobId = some event ↔
    ∃ transfer ∈ direction.queue.transfers, transfer.jobId = jobId ∧ transfer.endEvent = event
  streams : direction.queue.streamPool.Holds (direction.queue.transfers.map Transfer.stream)
  events : direction.queue.eventPool.Holds (direction.queue.transfers.flatMap fun transfer =>
    [transfer.startEvent, transfer.endEvent])
  buffers : ((direction.queue.transfers.map fun transfer => transfer.buffers.id) ++
    direction.queue.bufferPool.map Buffers.id).Perm (List.range direction.queue.bufferSets)
  fits : ∀ transfer ∈ direction.queue.transfers,
    transfer.ops.length ≤ transfer.buffers.capacity
  peaked : direction.queue.transfers.length ≤ direction.peak ∧
    direction.queue.streamPool.created ≤ direction.peak ∧
    direction.queue.eventPool.created ≤ 2 * direction.peak
  sized : ∀ capacity, 0 < capacity →
    (direction.queue.sets.map Buffers.capacity).count capacity ≤ direction.peak

section Buffers

variable {need : Nat}

theorem scan_fits_some (entries : List (Buffers × Nat)) {best : Option Nat × Nat} {index : Nat}
    (found : scanFits need entries best = some index) :
    best.1 = some index ∨ ∃ entry ∈ entries, entry.2 = index ∧ need ≤ entry.1.capacity := by
  induction entries generalizing best with
  | nil => exact .inl found
  | cons entry rest ih =>
      obtain ⟨buffers, place⟩ := entry
      rcases ih found with kept | ⟨other, member, isOther⟩
      · split at kept
        · rename_i fits
          exact .inr ⟨_, List.mem_cons_self .., Option.some.inj kept, fits.1⟩
        · exact .inl kept
      · exact .inr ⟨other, List.mem_cons_of_mem _ member, isOther⟩

theorem scan_fits_none (entries : List (Buffers × Nat)) {best : Option Nat × Nat}
    (nothing : scanFits need entries best = none) :
    best.1 = none ∧ ∀ entry ∈ entries, need ≤ entry.1.capacity → entry.1.capacity ≤ best.2 := by
  induction entries generalizing best with
  | nil => exact ⟨nothing, nofun⟩
  | cons entry rest ih =>
      obtain ⟨buffers, place⟩ := entry
      obtain ⟨kept, later⟩ := ih nothing
      split at kept
      · cases kept
      · rename_i small
        rw [if_neg small] at later
        refine ⟨kept, fun other member fits => ?_⟩
        rcases List.mem_cons.mp member with rfl | member
        · exact Nat.le_of_not_lt fun larger => small ⟨fits, larger⟩
        · exact later other member fits

/-- The arrays that are taken come from the others, or no others of their size are free. -/
theorem take_buffers_cases (queue : Queue) (need : Nat) :
    ((queue.takeBuffers need).1 :: (queue.takeBuffers need).2.bufferPool).Perm queue.bufferPool ∨
      (queue.takeBuffers need).2.bufferPool = queue.bufferPool ∧
        (queue.takeBuffers need).1.capacity = need ∧
        ∀ other ∈ queue.bufferPool, 0 < other.capacity → other.capacity ≠ need := by
  unfold Queue.takeBuffers
  cases found : queue.bestFit need with
  | none =>
      refine .inr ⟨rfl, rfl, fun other member positive same => ?_⟩
      obtain ⟨index, placed⟩ := List.getElem?_of_mem member
      have listed : (other, index) ∈ queue.bufferPool.zipIdx :=
        List.mem_zipIdx_iff_getElem?.mpr placed
      have empty := (scan_fits_none _ found).2 _ listed same.ge
      exact Nat.not_lt.mpr empty positive
  | some index =>
      rcases scan_fits_some _ found with impossible | ⟨⟨chosen, place⟩, member, rfl, _⟩
      · cases impossible
      · obtain ⟨within, same⟩ :=
          List.getElem?_eq_some_iff.mp (List.mem_zipIdx_iff_getElem?.mp member)
        refine .inl ?_
        have chosenIs : queue.bufferPool.getD place ⟨0, 0, true⟩ = queue.bufferPool[place] :=
          (List.getElem_eq_getD _).symm
        show (queue.bufferPool.getD place ⟨0, 0, true⟩ :: queue.bufferPool.eraseIdx place).Perm _
        rw [chosenIs]
        exact List.getElem_cons_eraseIdx_perm within

/-- New arrays are only made where all free ones have another size. -/
theorem take_buffers_sized (queue : Queue) (need : Nat) {capacity : Nat} (positive : 0 < capacity) :
    ((((queue.takeBuffers need).1 :: queue.transfers.map Transfer.buffers) ++
      (queue.takeBuffers need).2.bufferPool).map Buffers.capacity).count capacity ≤
        max ((queue.sets.map Buffers.capacity).count capacity) (queue.transfers.length + 1) := by
  rcases take_buffers_cases queue need with taken | ⟨same, needed, apart⟩
  · have moved := (List.perm_middle.symm.trans
      (taken.append_left (queue.transfers.map Transfer.buffers))).map Buffers.capacity
    exact (moved.count_eq capacity).le.trans (le_max_left _ _)
  · rw [same, List.cons_append, List.map_cons, needed, List.count_cons]
    by_cases own : need = capacity
    · refine le_max_of_le_right ?_
      have noneFree : (queue.bufferPool.map Buffers.capacity).count capacity = 0 := by
        refine List.count_eq_zero.mpr fun member => ?_
        obtain ⟨other, listed, isCapacity⟩ := List.mem_map.mp member
        exact apart other listed (isCapacity ▸ positive) (isCapacity.trans own.symm)
      have inUse : ((queue.transfers.map Transfer.buffers).map Buffers.capacity).count capacity ≤
          queue.transfers.length := by
        refine List.count_le_length.trans ?_
        rw [List.length_map, List.length_map]
      rw [List.map_append, List.count_append, noneFree]
      split <;> omega
    · refine le_max_of_le_left ?_
      rw [if_neg (by simpa using own)]
      exact le_rfl

/-- The arrays taken have room, and none of the others is lost. -/
theorem take_buffers_spec (queue : Queue) (need : Nat) {held : List Nat}
    (buffers : (held ++ queue.bufferPool.map Buffers.id).Perm (List.range queue.bufferSets)) :
    need ≤ (queue.takeBuffers need).1.capacity ∧
      (((queue.takeBuffers need).1.id :: held) ++
        (queue.takeBuffers need).2.bufferPool.map Buffers.id).Perm
          (List.range (queue.takeBuffers need).2.bufferSets) := by
  unfold Queue.takeBuffers
  cases found : queue.bestFit need with
  | none =>
      refine ⟨le_rfl, ?_⟩
      show (queue.bufferSets :: held ++ queue.bufferPool.map Buffers.id).Perm
        (List.range (queue.bufferSets + 1))
      rw [List.range_succ]
      exact (List.perm_append_singleton queue.bufferSets _).symm.trans (buffers.append_right _)
  | some index =>
      rcases scan_fits_some _ found with impossible | ⟨⟨chosen, place⟩, member, rfl, fits⟩
      · cases impossible
      · have found := List.mem_zipIdx_iff_getElem?.mp member
        have chosenIs : queue.bufferPool.getD place ⟨0, 0, true⟩ = chosen := by
          rw [List.getD_eq_getElem?_getD, found]
          rfl
        refine ⟨chosenIs ▸ fits, ?_⟩
        obtain ⟨within, same⟩ := List.getElem?_eq_some_iff.mp found
        have moved := (List.getElem_cons_eraseIdx_perm within).map Buffers.id
        rw [same, List.map_cons] at moved
        show ((queue.bufferPool.getD place ⟨0, 0, true⟩).id :: held ++
          (queue.bufferPool.eraseIdx place).map Buffers.id).Perm (List.range queue.bufferSets)
        rw [chosenIs]
        exact (List.perm_middle.symm.trans (moved.append_left held)).trans buffers

end Buffers

section Submissions

variable {direction after : Direction} {jobId : JobId} {gpuSpec : GPULoadStoreSpec}
  {cpuBlockIds : List Nat}

/-- The record that the next transfer waits for is the last one, or all are done. -/
theorem last_record_spec (inv : DirectionInv direction) :
    (∀ earlier, direction.queue.lastRecord direction.device = some earlier →
      earlier < direction.device.records) ∧
    ((∀ last, last + 1 = direction.device.records →
        direction.queue.lastRecord direction.device = some last) ∨
      direction.device.done.card = direction.device.records) := by
  have counted := congrArg List.length inv.jobs
  rw [List.length_map, List.length_append, List.length_map] at counted
  have records := inv.records
  cases transfers : direction.queue.transfers.getLast? with
  | none =>
      have none := List.getLast?_eq_none_iff.mp transfers
      rw [none, List.length_nil, Nat.add_zero] at counted
      refine ⟨fun earlier isEarlier => ?_, .inr ?_⟩
      · rw [Queue.lastRecord, transfers] at isEarlier
        cases isEarlier
      · have reported := inv.reported_done
        have bounded := inv.order.bounded
        omega
  | some last =>
      rw [List.getLast?_eq_getElem?] at transfers
      obtain ⟨within, _⟩ := List.getElem?_eq_some_iff.mp transfers
      have latest := (inv.recorded _ last transfers).2
      rw [← List.getLast?_eq_getElem?] at transfers
      have isLast : direction.queue.lastRecord direction.device =
          some (2 * (direction.reported.length + (direction.queue.transfers.length - 1)) + 1) := by
        rw [Queue.lastRecord, transfers]
        exact latest
      refine ⟨fun earlier isEarlier => ?_, .inl fun record isRecord => ?_⟩
      · have same := Option.some.inj (isLast.symm.trans isEarlier)
        omega
      · rw [isLast]
        congr 1
        omega

/-- The direction after a transfer with these copies. -/
def Direction.launched (direction : Direction) (jobId : JobId) (gpuSpec : GPULoadStoreSpec)
    (ops : List CopyOp) : Direction :=
  let taken := direction.queue.takeBuffers (direction.queue.handler.estimateMaxCopyOps gpuSpec)
  let stream := direction.queue.streamPool.take
  let startEvent := direction.queue.eventPool.take
  let endEvent := startEvent.2.take
  let transfers := direction.queue.transfers ++ [{
    jobId := jobId
    stream := stream.1
    startEvent := startEvent.1
    endEvent := endEvent.1
    numBytes := (ops.map CopyOp.size).sum
    buffers := taken.1
    ops := ops }]
  { direction with
    queue := { taken.2 with
      transferEvents := direction.queue.transferEvents.set jobId endEvent.1
      transfers := transfers
      streamPool := stream.2
      eventPool := endEvent.2 }
    device := (direction.device.record startEvent.1
      (direction.queue.lastRecord direction.device)).record endEvent.1
        (some direction.device.records)
    submitted := direction.submitted ++
      [⟨jobId, direction.device.records, direction.device.records + 1⟩]
    peak := max direction.peak transfers.length }

theorem submit_ok (submitted : direction.submit jobId gpuSpec cpuBlockIds = .ok after) :
    ∃ ops, direction.queue.handler.transferAsync gpuSpec cpuBlockIds = .ok ops ∧
      ops.length ≤ direction.queue.handler.estimateMaxCopyOps gpuSpec ∧
      after = direction.launched jobId gpuSpec ops := by
  obtain ⟨⟨queue, device⟩, started, same⟩ := bind_eq_ok.mp submitted
  obtain ⟨ops, opsOk, launched⟩ := bind_eq_ok.mp started
  cases launched
  cases same
  refine ⟨ops, opsOk, ?_, rfl⟩
  obtain ⟨_, _, opsOk⟩ := bind_eq_ok.mp opsOk
  obtain ⟨_, _, opsOk⟩ := bind_eq_ok.mp opsOk
  obtain ⟨⟨found, srcLeft, dstLeft⟩, _, opsOk⟩ := bind_eq_ok.mp opsOk
  obtain ⟨_, _, opsOk⟩ := bind_eq_ok.mp opsOk
  obtain ⟨_, _, opsOk⟩ := bind_eq_ok.mp opsOk
  obtain ⟨_, enough, opsOk⟩ := bind_eq_ok.mp opsOk
  cases opsOk
  exact py_assert_eq_ok.mp enough

/-- A list with one more entry at the end. -/
theorem concat_entry {α : Type} {entries : List α} {last entry : α} {index : Nat}
    (found : (entries ++ [last])[index]? = some entry) :
    entries[index]? = some entry ∨ index = entries.length ∧ entry = last := by
  rw [List.getElem?_append] at found
  split at found
  · exact .inl found
  · rename_i beyond
    obtain ⟨within, same⟩ := List.getElem?_eq_some_iff.mp found
    have within : index - entries.length < 1 := within
    have first : index - entries.length = 0 := by omega
    refine .inr ⟨by omega, ?_⟩
    rw [first] at found
    exact (Option.some.inj found).symm

theorem submitted_length (inv : DirectionInv direction) :
    direction.submitted.length =
      direction.reported.length + direction.queue.transfers.length := by
  have counted := congrArg List.length inv.jobs
  rwa [List.length_map, List.length_append, List.length_map] at counted

theorem launched_order (inv : DirectionInv direction) (ops : List CopyOp) :
    InOrder (direction.launched jobId gpuSpec ops).device := by
  obtain ⟨backward, waits⟩ := last_record_spec inv
  have started := record_in_order inv.order direction.queue.eventPool.take.1 backward waits
  refine record_in_order started _ (fun earlier isEarlier => ?_) (.inl fun last isLast => ?_)
  · cases isEarlier
    exact Nat.lt_succ_self _
  · exact congrArg some (Nat.succ.inj isLast).symm

/-- Events of transfers in flight keep their records; the new ones have the last two. -/
theorem launched_recorded (inv : DirectionInv direction) (ops : List CopyOp) {index : Nat}
    {transfer : Transfer}
    (found : (direction.launched jobId gpuSpec ops).queue.transfers[index]? = some transfer) :
    (direction.launched jobId gpuSpec ops).device.latest transfer.startEvent =
        some (2 * (direction.reported.length + index)) ∧
      (direction.launched jobId gpuSpec ops).device.latest transfer.endEvent =
        some (2 * (direction.reported.length + index) + 1) := by
  have startHolds := take_holds inv.events
  have endFresh := take_fresh startHolds
  have startFresh := take_fresh inv.events
  have different : direction.queue.eventPool.take.1 ≠
      direction.queue.eventPool.take.2.take.1 :=
    fun same => endFresh (same ▸ List.mem_cons_self ..)
  have records : direction.device.records =
      2 * (direction.reported.length + direction.queue.transfers.length) := by
    rw [inv.records, submitted_length inv]
  rcases concat_entry found with old | ⟨rfl, rfl⟩
  · have member := List.mem_of_getElem? old
    have isStart : transfer.startEvent ∈ direction.queue.transfers.flatMap fun transfer =>
        [transfer.startEvent, transfer.endEvent] :=
      List.mem_flatMap.mpr ⟨transfer, member, List.mem_cons_self ..⟩
    have isEnd : transfer.endEvent ∈ direction.queue.transfers.flatMap fun transfer =>
        [transfer.startEvent, transfer.endEvent] :=
      List.mem_flatMap.mpr ⟨transfer, member, by simp⟩
    have kept : ∀ event ∈ direction.queue.transfers.flatMap (fun transfer =>
        [transfer.startEvent, transfer.endEvent]),
        (direction.launched jobId gpuSpec ops).device.latest event =
          direction.device.latest event := by
      intro event isHeld
      have notStart : event ≠ direction.queue.eventPool.take.1 :=
        fun same => startFresh (same ▸ isHeld)
      have notEnd : event ≠ direction.queue.eventPool.take.2.take.1 :=
        fun same => endFresh (List.mem_cons_of_mem _ (same ▸ isHeld))
      refine (latest_record _ _ _).trans ((if_neg notEnd).trans ?_)
      exact (latest_record _ _ _).trans (if_neg notStart)
    obtain ⟨startIs, endIs⟩ := inv.recorded index transfer old
    exact ⟨(kept _ isStart).trans startIs, (kept _ isEnd).trans endIs⟩
  · constructor
    · refine (latest_record _ _ _).trans ((if_neg different).trans ?_)
      rw [latest_record, if_pos rfl, records]
    · refine (latest_record _ _ _).trans ((if_pos rfl).trans ?_)
      exact congrArg some (congrArg (· + 1) records)

theorem launched_listed (inv : DirectionInv direction) (ops : List CopyOp)
    (fresh : jobId ∉ direction.submitted.map Submission.jobId) (otherId : JobId) (event : Nat) :
    (direction.launched jobId gpuSpec ops).queue.transferEvents.get? otherId = some event ↔
      ∃ transfer ∈ (direction.launched jobId gpuSpec ops).queue.transfers,
        transfer.jobId = otherId ∧ transfer.endEvent = event := by
  show (direction.queue.transferEvents.set jobId _).get? otherId = some event ↔
    ∃ transfer ∈ direction.queue.transfers ++ [_], _
  simp only [List.mem_append, List.mem_singleton]
  rw [OrderedMap.get_set]
  split
  · rename_i same
    subst same
    constructor
    · intro isEnd
      exact ⟨_, .inr rfl, rfl, Option.some.inj isEnd⟩
    · rintro ⟨transfer, old | rfl, isJob, isEnd⟩
      · refine absurd ?_ fresh
        rw [inv.jobs, ← isJob]
        exact List.mem_append_right _ (List.mem_map_of_mem old)
      · exact congrArg some isEnd
  · rename_i other
    rw [inv.listed otherId event]
    constructor
    · rintro ⟨transfer, member, facts⟩
      exact ⟨transfer, .inl member, facts⟩
    · rintro ⟨transfer, old | rfl, isJob, isEnd⟩
      · exact ⟨transfer, old, isJob, isEnd⟩
      · exact absurd isJob.symm other

theorem launched_inv (inv : DirectionInv direction) {ops : List CopyOp}
    (enough : ops.length ≤ direction.queue.handler.estimateMaxCopyOps gpuSpec)
    (fresh : jobId ∉ direction.submitted.map Submission.jobId) :
    DirectionInv (direction.launched jobId gpuSpec ops) := by
  obtain ⟨room, buffers⟩ := take_buffers_spec direction.queue
    (direction.queue.handler.estimateMaxCopyOps gpuSpec) inv.buffers
  have startHolds := take_holds inv.events
  refine ⟨launched_order inv ops, ?_, ?_, ?_, ?_, inv.reported_done, ?_, ?_, ?_, ?_, ?_, ?_, ?_,
    fun capacity positive => ?_⟩
  · show direction.device.records + 1 + 1 = 2 * (direction.submitted ++ [_]).length
    rw [inv.records, List.length_append, List.length_singleton]
    rfl
  · intro index entry found
    rcases concat_entry found with old | ⟨rfl, rfl⟩
    · exact inv.numbered index entry old
    · exact ⟨inv.records, congrArg (· + 1) inv.records⟩
  · show (direction.submitted ++ [_]).map Submission.jobId =
      direction.reported ++ (direction.queue.transfers ++ [_]).map Transfer.jobId
    rw [List.map_append, List.map_append, inv.jobs, List.append_assoc]
    rfl
  · show ((direction.submitted ++ [_]).map Submission.jobId).Nodup
    rw [List.map_append]
    have joined := List.Nodup.concat fresh inv.distinct
    rwa [List.concat_eq_append] at joined
  · intro index transfer found
    exact launched_recorded inv ops found
  · exact launched_listed inv ops fresh
  · refine holds_perm (take_holds inv.streams) ?_
    show ((direction.queue.transfers ++ [_]).map Transfer.stream).Perm _
    rw [List.map_append]
    exact List.perm_append_singleton _ _
  · refine holds_perm (take_holds startHolds) ?_
    show ((direction.queue.transfers ++ [_]).flatMap _).Perm _
    rw [List.flatMap_append]
    refine List.perm_append_comm.trans ?_
    exact List.Perm.swap _ _ _
  · refine List.Perm.trans (List.Perm.append_right _ ?_) buffers
    show ((direction.queue.transfers ++ [_]).map fun transfer : Transfer =>
      transfer.buffers.id).Perm _
    rw [List.map_append]
    exact List.perm_append_singleton _ _
  · intro transfer member
    rcases List.mem_append.mp member with old | new
    · exact inv.fits transfer old
    · rw [List.mem_singleton.mp new]
      exact enough.trans room
  · obtain ⟨inFlight, streams, events⟩ := inv.peaked
    have newStreams := take_created_le inv.streams
    have newStart := take_created_le inv.events
    have newEnd := take_created_le startHolds
    have held : (direction.queue.transfers.flatMap fun transfer =>
        [transfer.startEvent, transfer.endEvent]).length =
          2 * direction.queue.transfers.length := by
      rw [List.length_flatMap]
      simp [Nat.mul_comm]
    rw [List.length_map] at newStreams
    rw [List.length_cons] at newEnd
    rw [held] at newStart newEnd
    have grown : (direction.launched jobId gpuSpec ops).peak =
        max direction.peak (direction.queue.transfers.length + 1) := by
      show max direction.peak (direction.queue.transfers ++ [_]).length = _
      rw [List.length_append, List.length_singleton]
    show (direction.queue.transfers ++ [_]).length ≤ _ ∧
      direction.queue.streamPool.take.2.created ≤ _ ∧
      direction.queue.eventPool.take.2.take.2.created ≤ 2 * _
    rw [grown, List.length_append, List.length_singleton]
    omega
  · have taken := take_buffers_sized direction.queue
      (direction.queue.handler.estimateMaxCopyOps gpuSpec) positive
    have before := inv.sized capacity positive
    have moved : ((direction.launched jobId gpuSpec ops).queue.sets.map Buffers.capacity).Perm
        ((((direction.queue.takeBuffers (direction.queue.handler.estimateMaxCopyOps gpuSpec)).1 ::
          direction.queue.transfers.map Transfer.buffers) ++
            (direction.queue.takeBuffers
              (direction.queue.handler.estimateMaxCopyOps gpuSpec)).2.bufferPool).map
                Buffers.capacity) := by
      refine List.Perm.map _ (List.Perm.append_right _ ?_)
      show ((direction.queue.transfers ++ [_]).map Transfer.buffers).Perm _
      rw [List.map_append]
      exact List.perm_append_singleton _ _
    have grown : (direction.launched jobId gpuSpec ops).peak =
        max direction.peak (direction.queue.transfers.length + 1) := by
      show max direction.peak (direction.queue.transfers ++ [_]).length = _
      rw [List.length_append, List.length_singleton]
    rw [moved.count_eq, grown]
    exact taken.trans (max_le_max_right _ before)

end Submissions

section Reports

variable {direction : Direction} {transfer : Transfer} {rest : List Transfer}

/-- The direction after its front transfer was reported. -/
def Direction.settled (direction : Direction) (transfer : Transfer) (rest : List Transfer) :
    Direction :=
  { direction with
    queue := { direction.queue with
      transfers := rest
      streamPool := direction.queue.streamPool.give transfer.stream
      eventPool := (direction.queue.eventPool.give transfer.endEvent).give transfer.startEvent
      bufferPool := direction.queue.bufferPool ++ [transfer.buffers]
      transferEvents := direction.queue.transferEvents.erase transfer.jobId }
    reported := direction.reported ++ [transfer.jobId] }

/-- The end of a transfer in flight is complete when its record is among the first ones. -/
theorem query_end_iff (inv : DirectionInv direction) {index : Nat}
    (found : direction.queue.transfers[index]? = some transfer) :
    direction.device.query transfer.endEvent = true ↔
      2 * (direction.reported.length + index) + 1 < direction.device.done.card :=
  (query_of_latest (inv.recorded index transfer found).2).trans (mem_done_iff inv.order _)

/-- The start of a transfer is complete when its end is. -/
theorem query_start (inv : DirectionInv direction) {index : Nat}
    (found : direction.queue.transfers[index]? = some transfer)
    (finished : direction.device.query transfer.endEvent = true) :
    direction.device.query transfer.startEvent = true := by
  have reached := (query_end_iff inv found).mp finished
  refine (query_of_latest (inv.recorded index transfer found).1).mpr ?_
  exact (mem_done_iff inv.order _).mpr (Nat.lt_of_succ_lt reached)

theorem retire_ok (inv : DirectionInv direction)
    (front : direction.queue.transfers = transfer :: rest)
    (finished : direction.device.query transfer.endEvent = true) :
    direction.queue.retire direction.device transfer rest =
      .ok (⟨transfer.jobId, true, transfer.numBytes⟩, (direction.settled transfer rest).queue) := by
  have found : direction.queue.transfers[0]? = some transfer := by rw [front]; rfl
  have started := query_start inv found finished
  have known := (inv.listed transfer.jobId transfer.endEvent).mpr
    ⟨transfer, List.mem_of_getElem? found, rfl, rfl⟩
  unfold Queue.retire
  rw [started, finished, known]
  rfl

/-- Of transfers with different jobs, the others are those with another job. -/
theorem settled_listed (inv : DirectionInv direction)
    (front : direction.queue.transfers = transfer :: rest) (jobId : JobId) (event : Nat) :
    (direction.queue.transferEvents.erase transfer.jobId).get? jobId = some event ↔
      ∃ other ∈ rest, other.jobId = jobId ∧ other.endEvent = event := by
  have distinct := inv.distinct
  rw [inv.jobs, front] at distinct
  have apart := (List.nodup_cons.mp distinct.of_append_right).1
  rw [OrderedMap.get_erase]
  split
  · rename_i same
    constructor
    · intro impossible
      cases impossible
    · rintro ⟨other, member, isJob, _⟩
      exact absurd ((isJob.trans same) ▸ List.mem_map_of_mem member) apart
  · rename_i different
    rw [inv.listed jobId event, front]
    constructor
    · rintro ⟨other, member, isJob, isEnd⟩
      rcases List.mem_cons.mp member with rfl | member
      · exact absurd isJob.symm different
      · exact ⟨other, member, isJob, isEnd⟩
    · rintro ⟨other, member, facts⟩
      exact ⟨other, List.mem_cons_of_mem _ member, facts⟩

theorem settled_inv (inv : DirectionInv direction)
    (front : direction.queue.transfers = transfer :: rest)
    (finished : direction.device.query transfer.endEvent = true) :
    DirectionInv (direction.settled transfer rest) := by
  have found : direction.queue.transfers[0]? = some transfer := by rw [front]; rfl
  have reached := (query_end_iff inv found).mp finished
  have reported : (direction.settled transfer rest).reported.length =
      direction.reported.length + 1 := by
    rw [Direction.settled, List.length_append, List.length_singleton]
  refine ⟨inv.order, inv.records, inv.numbered, ?_, inv.distinct, ?_, ?_,
    settled_listed inv front, ?_, ?_, ?_, ?_, ?_, ?_⟩
  · refine inv.jobs.trans ?_
    show direction.reported ++ direction.queue.transfers.map Transfer.jobId =
      direction.reported ++ [transfer.jobId] ++ rest.map Transfer.jobId
    rw [front, List.append_assoc]
    rfl
  · rw [reported]
    show 2 * (direction.reported.length + 1) ≤ direction.device.done.card
    omega
  · intro index other isOther
    have isOther : rest[index]? = some other := isOther
    have shifted := inv.recorded (index + 1) other (by rw [front]; exact isOther)
    rw [reported, Nat.add_assoc, Nat.add_comm 1 index]
    exact shifted
  · have streams := inv.streams
    rw [front] at streams
    exact give_holds streams
  · have events := inv.events
    rw [front] at events
    exact give_holds (give_holds (holds_perm events (List.Perm.swap _ _ _)))
  · have buffers := inv.buffers
    rw [front] at buffers
    refine List.Perm.trans ?_ buffers
    show ((rest.map fun other : Transfer => other.buffers.id) ++
      (direction.queue.bufferPool ++ [transfer.buffers]).map Buffers.id).Perm _
    rw [List.map_append, ← List.append_assoc]
    exact List.perm_append_singleton _ _
  · intro other member
    exact inv.fits other (front ▸ List.mem_cons_of_mem _ member)
  · obtain ⟨inFlight, streams, events⟩ := inv.peaked
    rw [front, List.length_cons] at inFlight
    exact ⟨Nat.le_of_succ_le inFlight, streams, events⟩
  · intro capacity positive
    have moved : (direction.settled transfer rest).queue.sets.Perm direction.queue.sets := by
      unfold Queue.sets
      rw [front]
      show (rest.map Transfer.buffers ++
        (direction.queue.bufferPool ++ [transfer.buffers])).Perm _
      rw [← List.append_assoc]
      exact List.perm_append_singleton _ _
    rw [(moved.map Buffers.capacity).count_eq]
    exact inv.sized capacity positive

/-- Exactly the transfers that are complete are reported. -/
theorem get_finished_spec (transfers : List Transfer) :
    ∀ direction : Direction, DirectionInv direction → direction.queue.transfers = transfers →
      ∃ results queue,
        Queue.getFinishedFrom direction.device transfers direction.queue = .ok (results, queue) ∧
        DirectionInv { direction with
          queue := queue
          reported := direction.reported ++ results.map TransferResult.jobId } ∧
        results = (transfers.filter fun transfer =>
          direction.device.query transfer.endEvent).map fun transfer =>
            ⟨transfer.jobId, true, transfer.numBytes⟩ := by
  induction transfers with
  | nil =>
      intro direction inv _
      refine ⟨[], direction.queue, rfl, ?_, rfl⟩
      rw [List.map_nil, List.append_nil]
      exact inv
  | cons transfer rest ih =>
      intro direction inv front
      cases finished : direction.device.query transfer.endEvent with
      | false =>
          refine ⟨[], direction.queue, ?_, ?_, ?_⟩
          · rw [Queue.getFinishedFrom, finished]
            rfl
          · rw [List.map_nil, List.append_nil]
            exact inv
          · have noneDone : (transfer :: rest).filter (fun other =>
                direction.device.query other.endEvent) = [] := by
              refine List.filter_eq_nil_iff.mpr fun other member isDone => ?_
              obtain ⟨index, found⟩ := List.getElem?_of_mem member
              have late := (query_end_iff inv (front ▸ found)).mp isDone
              have first : direction.queue.transfers[0]? = some transfer := by rw [front]; rfl
              have early := mt (query_end_iff inv first).mpr (by rw [finished]; exact Bool.false_ne_true)
              omega
            rw [noneDone]
            rfl
      | true =>
          obtain ⟨results, queue, ran, left, exactly⟩ :=
            ih (direction.settled transfer rest) (settled_inv inv front finished) rfl
          refine ⟨⟨transfer.jobId, true, transfer.numBytes⟩ :: results, queue, ?_, ?_, ?_⟩
          · rw [Queue.getFinishedFrom, finished]
            show (direction.queue.retire direction.device transfer rest >>= _) = _
            rw [retire_ok inv front finished]
            show (Queue.getFinishedFrom direction.device rest
              (direction.settled transfer rest).queue >>= _) = _
            have ran : Queue.getFinishedFrom direction.device rest
              (direction.settled transfer rest).queue = .ok (results, queue) := ran
            rw [ran]
            rfl
          · rw [List.map_cons, List.append_cons]
            exact left
          · have kept : (transfer :: rest).filter (fun other =>
                direction.device.query other.endEvent) =
                  transfer :: rest.filter fun other => direction.device.query other.endEvent :=
              List.filter_cons_of_pos finished
            rw [kept, List.map_cons, exactly]
            rfl

end Reports

end KvOffload.TransferQueue
