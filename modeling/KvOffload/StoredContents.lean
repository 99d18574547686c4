import KvOffload.BlockCustody

/-!
# Contents of the CPU blocks

What the workers' blocks hold beside the books of the connector. A ready key's block holds
its data on every worker, a store that a worker has finished has filled its blocks there, and
a load that a worker has not finished finds its data. Jobs from before a reset may still run;
every later job waits for them.
-/

namespace KvOffload.StoredContents

open KvOffload KvOffload.Base KvOffload.PolicyInterface KvOffload.CpuManager KvOffload.CpuPool
open KvOffload.CpuManagerSpec KvOffload.ManagerInterface KvOffload.ConnectorScheduler
open KvOffload.JobBooks KvOffload.JobInvariants KvOffload.PinnedBlocks KvOffload.JobLedger
open KvOffload.GatedCopies KvOffload.TransferRecords KvOffload.BlockCustody

set_option autoImplicit false

/-- The workers are numbered, and the blocks of a worker are those of the CPU pool. -/
abbrev WorkerFleet := Fleet JobId Nat Nat OffloadKey

/-- All workers have finished the job. -/
def Everywhere (fleet : WorkerFleet) (numWorkers : Nat) (jobId : JobId) : Prop :=
  ∀ worker < numWorkers, worker ∈ fleet.done jobId

/-- Who waits for the jobs from before the last reset. -/
structure OrderInv (fleet : WorkerFleet) (flushing : Finset JobId) (numWorkers : Nat)
    (threshold counter : JobId) : Prop where
  issued : ∀ jobId ∈ fleet.sent, jobId < counter
  released : ∀ jobId worker, worker ∈ fleet.done jobId →
    jobId ∈ fleet.sent ∧ ∀ other ∈ fleet.awaited jobId, worker ∈ fleet.done other
  numbered : ∀ jobId, fleet.done jobId ⊆ Finset.range numWorkers
  known : ∀ stale < threshold, stale ∈ fleet.sent
  flushed : ∀ stale < threshold, Everywhere fleet numWorkers stale ∨ stale ∈ flushing
  awaited : ∀ jobId ∈ fleet.sent, threshold ≤ jobId → ∀ stale < threshold,
    Everywhere fleet numWorkers stale ∨ stale ∈ fleet.awaited jobId

section Orders

variable {fleet : WorkerFleet} {flushing : Finset JobId} {numWorkers : Nat}
  {threshold counter : JobId}

/-- A worker that has finished a job of this period has finished all earlier ones. -/
theorem stale_done (orders : OrderInv fleet flushing numWorkers threshold counter)
    {jobId stale : JobId} {worker : Nat} (inside : worker < numWorkers)
    (done : worker ∈ fleet.done jobId) (live : threshold ≤ jobId) (old : stale < threshold) :
    worker ∈ fleet.done stale := by
  obtain ⟨sent, released⟩ := orders.released jobId worker done
  rcases orders.awaited jobId sent live stale old with everywhere | awaited
  · exact everywhere worker inside
  · exact released stale awaited

theorem order_inv_grows (orders : OrderInv fleet flushing numWorkers threshold counter)
    {later : JobId} (grows : counter ≤ later) :
    OrderInv fleet flushing numWorkers threshold later :=
  ⟨fun jobId sent => (orders.issued jobId sent).trans_le grows, orders.released, orders.numbered,
    orders.known, orders.flushed, orders.awaited⟩

/-- At a reset all jobs are sent, and those in flight are added to those to be flushed. -/
theorem order_inv_reset (orders : OrderInv fleet flushing numWorkers threshold counter)
    (known : ∀ jobId < counter, jobId ∈ fleet.sent) {inFlight : Finset JobId} (finished : ∀ jobId, threshold ≤ jobId → jobId < counter →
      jobId ∉ inFlight → Everywhere fleet numWorkers jobId) :
    OrderInv fleet (flushing ∪ inFlight) numWorkers counter counter := by
  refine ⟨orders.issued, orders.released, orders.numbered, known, ?_, ?_⟩
  · intro stale below
    by_cases old : stale < threshold
    · exact (orders.flushed stale old).imp_right fun flushed => Finset.mem_union_left _ flushed
    · by_cases busy : stale ∈ inFlight
      · exact .inr (Finset.mem_union_right _ busy)
      · exact .inl (finished stale (Nat.le_of_not_lt old) below busy)
  · exact fun jobId sent later => absurd (orders.issued jobId sent) (Nat.not_lt.mpr later)

/-- An order is sent: it waits for all that was to be flushed. -/
theorem order_inv_send (orders : OrderInv fleet flushing numWorkers threshold counter)
    {jobs flush : Finset JobId} (issued : ∀ jobId ∈ jobs, jobId < counter)
    (flushes : flushing ⊆ fleet.flushed ∪ flush) :
    OrderInv (fleet.send jobs flush) (fleet.flushed ∪ flush) numWorkers threshold counter := by
  refine ⟨?_, ?_, orders.numbered, fun stale old => Finset.mem_union_left _
    (orders.known stale old), ?_, ?_⟩
  · intro jobId sent
    rcases Finset.mem_union.mp sent with earlier | new
    · exact orders.issued jobId earlier
    · exact issued jobId new
  · intro jobId worker done
    obtain ⟨sent, released⟩ := orders.released jobId worker done
    refine ⟨Finset.mem_union_left _ sent, fun other awaited => released other ?_⟩
    have isAwaited : other ∈ if jobId ∈ fleet.sent then fleet.awaited jobId
        else (fleet.flushed ∪ flush) ∩ fleet.sent := awaited
    rwa [if_pos sent] at isAwaited
  · exact fun stale old => (orders.flushed stale old).imp_right fun waiting => flushes waiting
  · intro jobId _ live stale old
    show _ ∨ stale ∈ if jobId ∈ fleet.sent then fleet.awaited jobId
      else (fleet.flushed ∪ flush) ∩ fleet.sent
    split
    · rename_i sent
      exact orders.awaited jobId sent live stale old
    · exact (orders.flushed stale old).imp_right fun waiting =>
        Finset.mem_inter.mpr ⟨flushes waiting, orders.known stale old⟩

theorem everywhere_worker {table : JobId → Option (Transfer Nat OffloadKey)}
    {event : WorkerEvent JobId Nat Nat OffloadKey} (allowed : Allowed table fleet event)
    {jobId : JobId} (everywhere : Everywhere fleet numWorkers jobId) :
    Everywhere (applyWorker fleet event) numWorkers jobId :=
  fun worker inside => (apply_worker_done allowed worker jobId).mpr
    (.inl (everywhere worker inside))

theorem order_inv_worker (orders : OrderInv fleet flushing numWorkers threshold counter)
    {table : JobId → Option (Transfer Nat OffloadKey)}
    {event : WorkerEvent JobId Nat Nat OffloadKey} (allowed : Allowed table fleet event)
    (inside : event.actor < numWorkers) :
    OrderInv (applyWorker fleet event) flushing numWorkers threshold counter := by
  obtain ⟨sent, awaited, _⟩ := @apply_worker_sent _ _ _ _ _ _ _ fleet event
  refine ⟨?_, ?_, ?_, ?_, ?_, ?_⟩
  · rw [sent]
    exact orders.issued
  · intro jobId worker done
    rw [sent, awaited]
    rcases (apply_worker_done allowed worker jobId).mp done with earlier | ⟨_, runs⟩
    · obtain ⟨isSent, released⟩ := orders.released jobId worker earlier
      exact ⟨isSent, fun other isAwaited => (apply_worker_done allowed worker other).mpr
        (.inl (released other isAwaited))⟩
    · exact ⟨runs.1, fun other isAwaited => (apply_worker_done allowed worker other).mpr
        (.inl (runs.2.2 other isAwaited))⟩
  · intro jobId worker done
    rcases (apply_worker_done allowed worker jobId).mp done with earlier | ⟨copied, _⟩
    · exact orders.numbered jobId earlier
    · rw [copied] at inside
      exact Finset.mem_range.mpr inside
  · rw [sent]
    exact orders.known
  · exact fun stale old => (orders.flushed stale old).imp_left (everywhere_worker allowed)
  · rw [sent, awaited]
    exact fun jobId isSent live stale old =>
      (orders.awaited jobId isSent live stale old).imp_left (everywhere_worker allowed)

end Orders

section Contents

variable {P : Type} [CachePolicy P] [LawfulCachePolicy P]

/-- A key that may be loaded. -/
def ReadyOn (books : Desk (CpuKeeper P)) (key : OffloadKey) (blockId : Nat) : Prop :=
  ∃ block, (tier books.manager).get key = some block ∧ 0 ≤ block.refCnt ∧
    block.blockId = blockId

/-- Both transfers use the block. -/
def Share (left right : Prepared) : Prop :=
  ∃ cell, cell ∈ left.transfer.slots.map Prod.snd ∧ cell ∈ right.transfer.slots.map Prod.snd

structure Contents (fleet : WorkerFleet) (flushing : Finset JobId) (books : Desk (CpuKeeper P)) :
    Prop where
  custody : Custody books
  orders : OrderInv fleet flushing books.numWorkers books.staleJobThreshold books.jobCounter
  finished : ∀ jobId, books.staleJobThreshold ≤ jobId → jobId < books.jobCounter →
    books.jobs.get? jobId = none → Everywhere fleet books.numWorkers jobId
  kept : ∀ key blockId, ReadyOn books key blockId → ∀ worker < books.numWorkers,
    fleet.cells worker blockId = some key
  settled : ∀ key blockId, ReadyOn books key blockId → ∀ stale < books.staleJobThreshold,
    Everywhere fleet books.numWorkers stale
  written : ∀ jobId entry, Live books jobId entry → entry.isStore = true →
    ∀ worker ∈ fleet.done jobId, Filled fleet worker entry.transfer
  unread : ∀ jobId entry, (prepared books.manager)[jobId]? = some entry →
    entry.isStore = false → ∀ worker < books.numWorkers, worker ∉ fleet.done jobId →
    Filled fleet worker entry.transfer
  ordered : ∀ store load left right, (prepared books.manager)[store]? = some left →
    (prepared books.manager)[load]? = some right → left.isStore = true → right.isStore = false →
    Share left right → ∀ worker < books.numWorkers, worker ∉ fleet.done store →
    worker ∉ fleet.done load → Waits fleet flushing store load

variable {fleet : WorkerFleet} {flushing : Finset JobId} {books after : Desk (CpuKeeper P)}

/-- A job that a worker has not finished is in flight or from before the last reset. -/
theorem live_or_stale (contents : Contents fleet flushing books) {jobId : JobId}
    {entry : Prepared} (isEntry : (prepared books.manager)[jobId]? = some entry) {worker : Nat}
    (inside : worker < books.numWorkers) (unfinished : worker ∉ fleet.done jobId) :
    Live books jobId entry ∨ jobId < books.staleJobThreshold := by
  by_cases old : jobId < books.staleJobThreshold
  · exact .inr old
  · cases found : books.jobs.get? jobId with
    | some job => exact .inl ⟨⟨job, found⟩, isEntry⟩
    | none =>
        obtain ⟨below, _⟩ := List.getElem?_eq_some_iff.mp isEntry
        rw [contents.custody.counted] at below
        exact absurd (contents.finished jobId (Nat.le_of_not_lt old) below found worker inside)
          unfinished

/-- The books change, the fleet does not, no job is issued and none ends unfinished. -/
theorem contents_of_books (contents : Contents fleet flushing books) (custody : Custody after)
    (unrecorded : prepared after.manager = prepared books.manager)
    (workers : after.numWorkers = books.numWorkers)
    (threshold : after.staleJobThreshold = books.staleJobThreshold)
    (counter : after.jobCounter = books.jobCounter)
    (jobs : ∀ jobId, after.jobs.get? jobId = none → books.jobs.get? jobId = none ∨
      Everywhere fleet books.numWorkers jobId)
    (live : ∀ jobId job, after.jobs.get? jobId = some job →
      ∃ earlier, books.jobs.get? jobId = some earlier)
    (ready : ∀ key blockId, ReadyOn after key blockId → ReadyOn books key blockId ∨
      (∀ worker < books.numWorkers, fleet.cells worker blockId = some key) ∧
        ∀ stale < books.staleJobThreshold, Everywhere fleet books.numWorkers stale) :
    Contents fleet flushing after := by
  constructor
  · exact custody
  · rw [workers, threshold, counter]
    exact contents.orders
  · rw [workers, threshold, counter]
    intro jobId low below absent
    rcases jobs jobId absent with absent | everywhere
    · exact contents.finished jobId low below absent
    · exact everywhere
  · rw [workers]
    intro key blockId isReady
    rcases ready key blockId isReady with earlier | ⟨filled, _⟩
    · exact contents.kept key blockId earlier
    · exact filled
  · rw [workers, threshold]
    intro key blockId isReady
    rcases ready key blockId isReady with earlier | ⟨_, settled⟩
    · exact contents.settled key blockId earlier
    · exact settled
  · rintro jobId entry ⟨⟨job, found⟩, isEntry⟩
    rw [unrecorded] at isEntry
    exact contents.written jobId entry ⟨live jobId job found, isEntry⟩
  · rw [unrecorded, workers]
    exact contents.unread
  · rw [unrecorded, workers]
    exact contents.ordered

/-- The books bind the same blocks and keep the same jobs. -/
theorem contents_of_same (contents : Contents fleet flushing books) (custody : Custody after)
    (same : (tier after.manager).get = (tier books.manager).get)
    (unrecorded : prepared after.manager = prepared books.manager)
    (workers : after.numWorkers = books.numWorkers)
    (threshold : after.staleJobThreshold = books.staleJobThreshold)
    (counter : after.jobCounter = books.jobCounter)
    (jobs : ∀ jobId, (after.jobs.get? jobId).isSome = (books.jobs.get? jobId).isSome) :
    Contents fleet flushing after := by
  apply contents_of_books contents custody unrecorded workers threshold counter
  · intro jobId absent
    have shape := jobs jobId
    rw [absent] at shape
    exact .inl (Option.not_isSome_iff_eq_none.mp (by rw [← shape]; exact Bool.false_ne_true))
  · intro jobId job found
    have shape := jobs jobId
    rw [found] at shape
    exact Option.isSome_iff_exists.mp shape.symm
  · rintro key blockId ⟨block, bound, isReady⟩
    rw [same] at bound
    exact .inl ⟨block, bound, isReady⟩

section Issue

variable {manager : CpuKeeper P} {reqId : ReqId} {request : ReqBooks} {job : TransferJobStatus}
  {fenced : List Nat}

/-- The next id was never sent, so no worker is done with it. -/
theorem next_unfinished (contents : Contents fleet flushing books) (worker : Nat) :
    books.jobCounter ∉ fleet.sent ∧ worker ∉ fleet.done books.jobCounter := by
  have unsent : books.jobCounter ∉ fleet.sent := fun sent =>
    absurd (contents.orders.issued _ sent) (lt_irrefl _)
  exact ⟨unsent, fun done => unsent (contents.orders.released _ _ done).1⟩

omit [CachePolicy P] [LawfulCachePolicy P] in
theorem enter_absent {jobId : JobId}
    (absent : ((books.withManager manager).enter reqId request job fenced).jobs.get? jobId = none) :
    jobId ≠ books.jobCounter ∧ books.jobs.get? jobId = none := by
  have absent := (get_enter_job job fenced jobId).symm.trans absent
  split at absent
  · cases absent
  · rename_i different
    exact ⟨different, absent⟩

/-- The entries of a manager that has prepared one more transfer. -/
theorem entry_cases (contents : Contents fleet flushing books) {entry : Prepared}
    (recorded : prepared manager = prepared books.manager ++ [entry]) {jobId : JobId}
    {other : Prepared} (isOther : (prepared manager)[jobId]? = some other) :
    jobId = books.jobCounter ∧ other = entry ∨ (prepared books.manager)[jobId]? = some other := by
  rw [recorded] at isOther
  by_cases below : jobId < (prepared books.manager).length
  · rw [List.getElem?_append_left below] at isOther
    exact .inr isOther
  · have bounds := (List.getElem?_eq_some_iff.mp isOther).1
    rw [List.length_append, List.length_singleton] at bounds
    obtain rfl : jobId = (prepared books.manager).length :=
      le_antisymm (Nat.le_of_lt_succ bounds) (Nat.le_of_not_lt below)
    rw [List.getElem?_concat_length] at isOther
    exact .inl ⟨contents.custody.counted, (Option.some.inj isOther).symm⟩

/-- The blocks of a store are not those of an unfinished load, unless the store waits for it. -/
theorem contents_store (contents : Contents fleet flushing books)
    (fresh : books.jobs.get? books.jobCounter = none) {keys : List OffloadKey}
    {output : PrepareStoreOutput} (pool : PoolInv (tier manager))
    (reserve : StoreReserved (tier books.manager) keys output (tier manager))
    (samePins : ∀ key, pins (tier manager) key = pins (tier books.manager) key)
    (recorded : prepared manager =
      prepared books.manager ++ [⟨true, output.keysToStore, output.storeSpec⟩])
    (isStore : job.isStore = true) (jobKeys : job.keys = output.keysToStore.dedup) :
    Contents fleet flushing ((books.withManager manager).enter reqId request job fenced) := by
  have custody : Custody ((books.withManager manager).enter reqId request job fenced) :=
    custody_store contents.custody fresh pool reserve samePins recorded isStore jobKeys
  have ready : ∀ key blockId,
      ReadyOn ((books.withManager manager).enter reqId request job fenced) key blockId →
      ReadyOn books key blockId := by
    rintro key blockId ⟨block, bound, isReady, isBlock⟩
    have bound : (tier manager).get key = some block := bound
    rw [reserve.get_after] at bound
    rcases Option.or_eq_some_iff.mp bound with added | ⟨_, earlier⟩
    · obtain ⟨_, _, rfl⟩ := Option.map_eq_some_iff.mp added
      rw [new_ref_cnt] at isReady
      omega
    · split at earlier
      · cases earlier
      · exact ⟨block, earlier, isReady, isBlock⟩
  constructor
  · exact custody
  · exact order_inv_grows contents.orders (Nat.le_succ _)
  · intro jobId low below absent
    obtain ⟨different, absent⟩ := enter_absent absent
    exact contents.finished jobId low
      (Nat.lt_of_le_of_ne (Nat.le_of_lt_succ below) different) absent
  · exact fun key blockId isReady => contents.kept key blockId (ready key blockId isReady)
  · exact fun key blockId isReady => contents.settled key blockId (ready key blockId isReady)
  · intro jobId entry live entryStore worker done
    rcases live_enter contents.custody recorded live with ⟨rfl, _⟩ | ⟨_, earlier⟩
    · exact absurd done (next_unfinished contents worker).2
    · exact contents.written jobId entry earlier entryStore worker done
  · intro jobId entry isEntry isLoad worker inside unfinished
    rcases entry_cases contents recorded isEntry with ⟨_, rfl⟩ | earlier
    · cases isLoad
    · exact contents.unread jobId entry earlier isLoad worker inside unfinished
  · intro store load left right isLeft isRight leftStore rightLoad share worker inside
      storeUnfinished loadUnfinished
    rcases entry_cases contents recorded isRight with ⟨_, rfl⟩ | earlierRight
    · cases rightLoad
    rcases entry_cases contents recorded isLeft with ⟨rfl, rfl⟩ | earlierLeft
    · rw [Waits, if_neg (next_unfinished contents worker).1]
      rcases live_or_stale contents earlierRight inside loadUnfinished with live | old
      · -- a load in flight reads ready blocks, the store's blocks are pending
        obtain ⟨cell, leftCell, rightCell⟩ := share
        obtain ⟨⟨leftKey, _⟩, leftSlot, rfl⟩ := List.mem_map.mp leftCell
        obtain ⟨⟨rightKey, rightBlock⟩, rightSlot, same⟩ := List.mem_map.mp rightCell
        obtain ⟨pending, bound, _⟩ := contents.custody.readable load right live rightLoad _ rightSlot
        have newLive : Live ((books.withManager manager).enter reqId request job fenced)
            books.jobCounter ⟨true, output.keysToStore, output.storeSpec⟩ :=
          ⟨⟨job, (get_enter_job job fenced _).trans (if_pos rfl)⟩, isLeft⟩
        have stillLive : Live ((books.withManager manager).enter reqId request job fenced)
            load right := by
          obtain ⟨⟨loadJob, found⟩, _⟩ := live
          refine ⟨⟨loadJob, (get_enter_job job fenced _).trans ?_⟩, isRight⟩
          have earlier : load ≠ books.jobCounter := by
            rintro rfl
            cases fresh.symm.trans found
          exact (if_neg earlier).trans found
        have leftBound := custody.reserved _ _ newLive rfl _ leftSlot
        obtain ⟨block, rightBound, nonneg, isBlock⟩ :=
          custody.readable load right stillLive rightLoad _ rightSlot
        have sameKey := stored_slot_injective custody.pool leftBound rightBound
          (same.symm.trans isBlock.symm)
        dsimp only at sameKey
        subst sameKey
        cases leftBound.symm.trans rightBound
        rw [new_ref_cnt] at nonneg
        omega
      · rcases contents.orders.flushed load old with everywhere | flushed
        · exact absurd (everywhere worker inside) loadUnfinished
        · exact ⟨flushed, contents.orders.known load old⟩
    · exact contents.ordered store load left right earlierLeft earlierRight leftStore rightLoad
        share worker inside storeUnfinished loadUnfinished

/-- The blocks of a load are ready, and no unfinished store writes them. -/
theorem contents_load (contents : Contents fleet flushing books)
    (fresh : books.jobs.get? books.jobCounter = none) {keys : List OffloadKey}
    {blockIds : List Nat}
    (call : (tier books.manager).prepareLoad keys = .ok (blockIds, tier manager))
    (recorded : prepared manager = prepared books.manager ++ [⟨false, keys, blockIds⟩])
    (isLoad : job.isStore = false) (jobKeys : job.keys = keys.dedup) :
    Contents fleet flushing ((books.withManager manager).enter reqId request job fenced) := by
  have custody : Custody ((books.withManager manager).enter reqId request job fenced) :=
    custody_load contents.custody fresh call recorded isLoad jobKeys
  have allReady := prepare_load_ready keys contents.custody.pool call
  obtain ⟨_, _, ok, _, _, get⟩ := prepare_load_ok keys contents.custody.pool allReady
  cases call.symm.trans ok
  have ready : ∀ key blockId,
      ReadyOn ((books.withManager manager).enter reqId request job fenced) key blockId →
      ReadyOn books key blockId := by
    rintro key blockId ⟨block, bound, isReady, isBlock⟩
    have bound : (tier manager).get key = some block := bound
    rw [get, shifted] at bound
    obtain ⟨earlier, isEarlier, rfl⟩ := Option.map_eq_some_iff.mp bound
    refine ⟨earlier, isEarlier, ?_, isBlock⟩
    by_cases member : key ∈ keys
    · obtain ⟨other, isOther, nonneg⟩ := allReady key member
      cases isEarlier.symm.trans isOther
      exact nonneg
    · rw [with_ref_cnt_ref_cnt, List.count_eq_zero_of_not_mem member] at isReady
      omega
  have newLive : Live ((books.withManager manager).enter reqId request job fenced)
      books.jobCounter ⟨false, keys, blockIds⟩ := by
    refine ⟨⟨job, (get_enter_job job fenced _).trans (if_pos rfl)⟩, ?_⟩
    show (prepared manager)[books.jobCounter]? = _
    rw [recorded, ← contents.custody.counted]
    exact List.getElem?_concat_length
  constructor
  · exact custody
  · exact order_inv_grows contents.orders (Nat.le_succ _)
  · intro jobId low below absent
    obtain ⟨different, absent⟩ := enter_absent absent
    exact contents.finished jobId low
      (Nat.lt_of_le_of_ne (Nat.le_of_lt_succ below) different) absent
  · exact fun key blockId isReady => contents.kept key blockId (ready key blockId isReady)
  · exact fun key blockId isReady => contents.settled key blockId (ready key blockId isReady)
  · intro jobId entry live entryStore worker done
    rcases live_enter contents.custody recorded live with ⟨rfl, _⟩ | ⟨_, earlier⟩
    · exact absurd done (next_unfinished contents worker).2
    · exact contents.written jobId entry earlier entryStore worker done
  · intro jobId entry isEntry entryLoad worker inside unfinished
    rcases entry_cases contents recorded isEntry with ⟨rfl, rfl⟩ | earlier
    · intro slot member
      have isReady := custody.readable _ _ newLive rfl slot member
      exact contents.kept slot.1 slot.2 (ready slot.1 slot.2 isReady) worker inside
    · exact contents.unread jobId entry earlier entryLoad worker inside unfinished
  · intro store load left right isLeft isRight leftStore rightLoad share worker inside
      storeUnfinished loadUnfinished
    rcases entry_cases contents recorded isLeft with ⟨_, rfl⟩ | earlierLeft
    · cases leftStore
    rcases entry_cases contents recorded isRight with ⟨rfl, rfl⟩ | earlierRight
    · obtain ⟨cell, leftCell, rightCell⟩ := share
      obtain ⟨⟨leftKey, _⟩, leftSlot, rfl⟩ := List.mem_map.mp leftCell
      obtain ⟨⟨rightKey, rightBlock⟩, rightSlot, same⟩ := List.mem_map.mp rightCell
      have isReady := ready rightKey rightBlock (custody.readable _ _ newLive rfl _ rightSlot)
      rcases live_or_stale contents earlierLeft inside storeUnfinished with live | old
      · -- the store's block is pending for its key and ready for the load's
        have leftBound := contents.custody.reserved store left live leftStore _ leftSlot
        obtain ⟨block, rightBound, nonneg, isBlock⟩ := isReady
        have sameKey := stored_slot_injective contents.custody.pool leftBound rightBound
          (same.symm.trans isBlock.symm)
        dsimp only at sameKey
        subst sameKey
        cases leftBound.symm.trans rightBound
        rw [new_ref_cnt] at nonneg
        omega
      · exact absurd (contents.settled rightKey rightBlock isReady store old worker inside)
          storeUnfinished
    · exact contents.ordered store load left right earlierLeft earlierRight leftStore rightLoad
        share worker inside storeUnfinished loadUnfinished

end Issue

section Done

variable {jobId : JobId} {job : TransferJobStatus}

omit [CachePolicy P] [LawfulCachePolicy P] in
theorem erase_absent (jobs : after.jobs = books.jobs.erase jobId) {other : JobId}
    (absent : after.jobs.get? other = none) : other = jobId ∨ books.jobs.get? other = none := by
  rw [jobs, OrderedMap.get_erase] at absent
  split at absent
  · rename_i same
    exact .inl same
  · exact .inr absent

omit [CachePolicy P] [LawfulCachePolicy P] in
theorem erase_found (jobs : after.jobs = books.jobs.erase jobId) {other : JobId}
    {found : TransferJobStatus} (isFound : after.jobs.get? other = some found) :
    books.jobs.get? other = some found := by
  rw [jobs, OrderedMap.get_erase] at isFound
  split at isFound
  · cases isFound
  · exact isFound

/-- A store that all workers have finished makes keys ready whose data is in place. -/
theorem contents_store_done (contents : Contents fleet flushing books)
    (found : books.jobs.get? jobId = some job) (isStore : job.isStore = true)
    (live : books.staleJobThreshold ≤ jobId)
    (everywhere : Everywhere fleet books.numWorkers jobId)
    (call : (tier books.manager).completeStore job.keys true = .ok (tier after.manager))
    (unrecorded : prepared after.manager = prepared books.manager)
    (workers : after.numWorkers = books.numWorkers)
    (threshold : after.staleJobThreshold = books.staleJobThreshold)
    (counter : after.jobCounter = books.jobCounter)
    (jobs : after.jobs = books.jobs.erase jobId) : Contents fleet flushing after := by
  have custody := custody_store_done contents.custody found isStore call unrecorded counter jobs
  obtain ⟨_, ok, _, get⟩ := complete_store_ok contents.custody.pool job.keys true
  cases call.symm.trans ok
  rw [if_pos rfl] at get
  obtain ⟨own, ownLive, ownKind, ownKeys⟩ := live_of_found contents.custody found
  apply contents_of_books contents custody unrecorded workers threshold counter
  · intro other absent
    rcases erase_absent jobs absent with rfl | absent
    · exact .inr everywhere
    · exact .inl absent
  · exact fun other status isFound => ⟨status, erase_found jobs isFound⟩
  · rintro key blockId ⟨block, bound, ready, isBlock⟩
    rw [get, published] at bound
    obtain ⟨earlier, isEarlier, same⟩ := Option.map_eq_some_iff.mp bound
    split at same
    · rename_i pending
      apply Or.inr
      refine ⟨?_, fun stale old worker inside =>
        stale_done contents.orders inside (everywhere worker inside) live old⟩
      -- the key became ready now: every worker has filled its block
      obtain ⟨ownBlock, slot⟩ := key_has_slot
        (contents.custody.sized own (List.mem_of_getElem? ownLive.2)) ((ownKeys key).mp pending.1)
      have reserved := contents.custody.reserved jobId own ownLive (ownKind.trans isStore) _ slot
      cases isEarlier.symm.trans reserved
      have named : ownBlock = blockId := by
        rw [← isBlock, ← same]
        rfl
      intro worker inside
      have filled := contents.written jobId own ownLive (ownKind.trans isStore) worker
        (everywhere worker inside) _ slot
      rw [← named]
      exact filled
    · subst same
      exact .inl ⟨earlier, isEarlier, ready, isBlock⟩

theorem contents_load_done (contents : Contents fleet flushing books)
    (found : books.jobs.get? jobId = some job) (isLoad : job.isStore = false)
    (everywhere : Everywhere fleet books.numWorkers jobId)
    (call : (tier books.manager).completeLoad job.keys = .ok (tier after.manager))
    (unrecorded : prepared after.manager = prepared books.manager)
    (workers : after.numWorkers = books.numWorkers)
    (threshold : after.staleJobThreshold = books.staleJobThreshold)
    (counter : after.jobCounter = books.jobCounter)
    (jobs : after.jobs = books.jobs.erase jobId) : Contents fleet flushing after := by
  obtain ⟨custody, ready⟩ :=
    custody_load_done contents.custody found isLoad call unrecorded counter jobs
  apply contents_of_books contents custody unrecorded workers threshold counter
  · intro other absent
    rcases erase_absent jobs absent with rfl | absent
    · exact .inr everywhere
    · exact .inl absent
  · exact fun other status isFound => ⟨status, erase_found jobs isFound⟩
  · rintro key blockId ⟨block, bound, isReady, isBlock⟩
    obtain ⟨earlier, isEarlier, earlierReady, same⟩ := ready key block bound isReady
    exact .inl ⟨earlier, isEarlier, earlierReady, same.trans isBlock⟩

/-- A reset leaves the jobs in flight to be flushed. -/
theorem contents_reset (contents : Contents fleet flushing books)
    (known : ∀ jobId < books.jobCounter, jobId ∈ fleet.sent) {manager : CpuKeeper P}
    (reset : tier manager = (tier books.manager).resetCache)
    (unrecorded : prepared manager = prepared books.manager) :
    Contents fleet (flushing ∪ books.jobs.keys.toFinset) (books.reset.withManager manager) := by
  have none : ∀ key blockId, ¬ReadyOn (books.reset.withManager manager) key blockId := by
    rintro key blockId ⟨block, bound, _⟩
    have bound : (tier manager).get key = some block := bound
    rw [reset, (reset_cache_spec (tier books.manager)).2] at bound
    cases bound
  have orders := order_inv_reset contents.orders known fun jobId live below idle =>
    contents.finished jobId live below (by
      by_contra present
      apply idle
      rw [List.mem_toFinset, OrderedMap.mem_keys_iff]
      exact Option.isSome_iff_ne_none.mpr present)
  constructor
  · exact custody_reset contents.custody reset unrecorded
  · exact orders
  · exact fun jobId low below => absurd below (Nat.not_lt.mpr low)
  · exact fun key blockId ready => absurd ready (none key blockId)
  · exact fun key blockId ready => absurd ready (none key blockId)
  · rintro jobId entry ⟨⟨job, found⟩, _⟩
    cases found
  · intro jobId entry isEntry
    have isEntry : (prepared manager)[jobId]? = some entry := isEntry
    rw [unrecorded] at isEntry
    exact contents.unread jobId entry isEntry
  · intro store load left right isLeft isRight leftStore rightLoad share worker inside
      storeUnfinished loadUnfinished
    have isLeft : (prepared manager)[store]? = some left := isLeft
    have isRight : (prepared manager)[load]? = some right := isRight
    rw [unrecorded] at isLeft isRight
    exact waits_mono Finset.subset_union_left (contents.ordered store load left right isLeft
      isRight leftStore rightLoad share worker inside storeUnfinished loadUnfinished)

end Done

section Fleet

theorem contents_send (contents : Contents fleet flushing books) {jobs flush : Finset JobId}
    (issued : ∀ jobId ∈ jobs, jobId < books.jobCounter)
    (flushes : flushing ⊆ fleet.flushed ∪ flush) :
    Contents (fleet.send jobs flush) (fleet.flushed ∪ flush) books where
  custody := contents.custody
  orders := order_inv_send contents.orders issued flushes
  finished := contents.finished
  kept := contents.kept
  settled := contents.settled
  written := contents.written
  unread := contents.unread
  ordered := by
    intro store load left right isLeft isRight leftStore rightLoad share worker inside
      storeUnfinished loadUnfinished
    exact waits_send flushes (contents.ordered store load left right isLeft isRight leftStore
      rightLoad share worker inside storeUnfinished loadUnfinished)

/-- A store that may write a block on a worker is in flight, with the block pending for one of
its keys, and the worker has finished all jobs from before the last reset; or it is itself from
before the reset. -/
theorem writable_cases (contents : Contents fleet flushing books) {worker cell : Nat}
    (inside : worker < books.numWorkers)
    (writable : Writable (tableOf books.manager) fleet worker cell) :
    ∃ jobId entry key, (prepared books.manager)[jobId]? = some entry ∧ entry.isStore = true ∧
      fleet.Runs worker jobId ∧ (key, cell) ∈ entry.transfer.slots ∧
      (Live books jobId entry ∨ jobId < books.staleJobThreshold) := by
  obtain ⟨jobId, transfer, runs, isTransfer, writes, member⟩ := writable
  obtain ⟨entry, isEntry, rfl⟩ := Option.map_eq_some_iff.mp isTransfer
  obtain ⟨⟨key, _⟩, slot, rfl⟩ := List.mem_map.mp member
  exact ⟨jobId, entry, key, isEntry, writes, runs, slot,
    live_or_stale contents isEntry inside runs.2.1⟩

theorem ready_shielded (contents : Contents fleet flushing books) {key : OffloadKey}
    {blockId worker : Nat} (ready : ReadyOn books key blockId)
    (inside : worker < books.numWorkers) :
    ¬Writable (tableOf books.manager) fleet worker blockId := by
  intro writable
  obtain ⟨jobId, entry, other, isEntry, isStore, runs, slot, live | old⟩ :=
    writable_cases contents inside writable
  · obtain ⟨block, bound, nonneg, isBlock⟩ := ready
    have pending := contents.custody.reserved jobId entry live isStore _ slot
    have same := stored_slot_injective contents.custody.pool pending bound isBlock.symm
    dsimp only at same
    subst same
    cases pending.symm.trans bound
    rw [new_ref_cnt] at nonneg
    omega
  · exact runs.2.1 (contents.settled key blockId ready jobId old worker inside)

theorem written_shielded (contents : Contents fleet flushing books) {jobId : JobId}
    {entry : Prepared} (live : Live books jobId entry) (isStore : entry.isStore = true)
    (late : books.staleJobThreshold ≤ jobId) {slot : OffloadKey × Nat}
    (member : slot ∈ entry.transfer.slots) {worker : Nat} (inside : worker < books.numWorkers)
    (done : worker ∈ fleet.done jobId) :
    ¬Writable (tableOf books.manager) fleet worker slot.2 := by
  intro writable
  obtain ⟨other, otherEntry, key, isOther, otherStore, runs, otherSlot, otherLive | old⟩ :=
    writable_cases contents inside writable
  · have different : jobId ≠ other := by
      rintro rfl
      exact runs.2.1 done
    have first := contents.custody.reserved jobId entry live isStore slot member
    have second := contents.custody.reserved other otherEntry otherLive otherStore _ otherSlot
    have same := stored_slot_injective contents.custody.pool first second rfl
    exact contents.custody.apart jobId other entry otherEntry live otherLive different isStore
      otherStore slot.1 (slot_key member) (same ▸ slot_key otherSlot)
  · exact runs.2.1 (stale_done contents.orders inside done late old)

theorem unread_shielded (contents : Contents fleet flushing books) {jobId : JobId}
    {entry : Prepared} (isEntry : (prepared books.manager)[jobId]? = some entry)
    (isLoad : entry.isStore = false) {slot : OffloadKey × Nat}
    (member : slot ∈ entry.transfer.slots) {worker : Nat} (inside : worker < books.numWorkers)
    (unfinished : worker ∉ fleet.done jobId) :
    ¬Writable (tableOf books.manager) fleet worker slot.2 := by
  intro writable
  obtain ⟨other, otherEntry, key, isOther, otherStore, runs, otherSlot, _⟩ :=
    writable_cases contents inside writable
  have share : Share otherEntry entry :=
    ⟨slot.2, List.mem_map.mpr ⟨_, otherSlot, rfl⟩, List.mem_map_of_mem member⟩
  exact not_runs_of_waits (contents.ordered other jobId otherEntry entry isOther isEntry otherStore
    isLoad share worker inside runs.2.1 unfinished) unfinished runs

/-- Whatever a worker does next, the contents stay in order. -/
theorem contents_worker (contents : Contents fleet flushing books)
    (live : ∀ jobId job, books.jobs.get? jobId = some job → books.staleJobThreshold ≤ jobId)
    {event : WorkerEvent JobId Nat Nat OffloadKey}
    (allowed : Allowed (tableOf books.manager) fleet event)
    (inside : event.actor < books.numWorkers) :
    Contents (applyWorker fleet event) flushing books := by
  have earlier : ∀ {worker : Nat} {jobId : JobId},
      worker ∉ (applyWorker fleet event).done jobId → worker ∉ fleet.done jobId :=
    fun unfinished done => unfinished ((apply_worker_done allowed _ _).mpr (.inl done))
  have orders := order_inv_worker contents.orders allowed inside
  constructor
  · exact contents.custody
  · exact orders
  · exact fun jobId low below absent =>
      everywhere_worker allowed (contents.finished jobId low below absent)
  · intro key blockId ready worker within
    rw [apply_worker_cells allowed (ready_shielded contents ready within)]
    exact contents.kept key blockId ready worker within
  · exact fun key blockId ready stale old =>
      everywhere_worker allowed (contents.settled key blockId ready stale old)
  · intro jobId entry isLive isStore worker done
    rcases (apply_worker_done allowed worker jobId).mp done with before | ⟨rfl, _⟩
    · intro slot member
      have within := Finset.mem_range.mp (contents.orders.numbered jobId before)
      obtain ⟨job, found⟩ := isLive.1
      rw [apply_worker_cells allowed (written_shielded contents isLive isStore
        (live jobId job found) member within before)]
      exact contents.written jobId entry isLive isStore worker before slot member
    · exact copied_filled allowed (congrArg (Option.map Prepared.transfer) isLive.2) isStore
  · intro jobId entry isEntry isLoad worker within unfinished slot member
    rw [apply_worker_cells allowed (unread_shielded contents isEntry isLoad member within
      (earlier unfinished))]
    exact contents.unread jobId entry isEntry isLoad worker within (earlier unfinished) slot member
  · intro store load left right isLeft isRight leftStore rightLoad share worker within
      storeUnfinished loadUnfinished
    exact waits_worker event (contents.ordered store load left right isLeft isRight leftStore
      rightLoad share worker within (earlier storeUnfinished) (earlier loadUnfinished))

end Fleet

end Contents

end KvOffload.StoredContents
