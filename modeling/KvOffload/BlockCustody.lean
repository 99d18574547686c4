import KvOffload.TransferRecords

/-!
# Blocks in custody of the jobs in flight

While a store is in flight its keys are bound to its blocks and not ready; the keys of two
stores in flight differ. While a load is in flight its keys are ready on its blocks, and
every load holds a pin on each of them.
-/

namespace KvOffload.BlockCustody

open KvOffload KvOffload.Base KvOffload.PolicyInterface KvOffload.FiniteTotals
open KvOffload.CpuManager KvOffload.CpuPool KvOffload.CpuManagerSpec KvOffload.ManagerInterface
open KvOffload.ConnectorScheduler KvOffload.JobBooks KvOffload.JobInvariants
open KvOffload.TieringSlots KvOffload.TieringOperations KvOffload.PinnedBlocks
open KvOffload.JobLedger KvOffload.TransferRecords

set_option autoImplicit false

variable {P : Type}

abbrev CpuKeeper (P : Type) := Keeper (CPUOffloadingManager P)

def tier (manager : CpuKeeper P) : CPUOffloadingManager P := manager.inner.inner

section Pins

variable [CachePolicy P]

theorem pins_published (current : OffloadKey → Option BlockStatus) (keys : List OffloadKey)
    (key : OffloadKey) : (published current keys key).elim 0 (fun block => block.refCnt.toNat) =
      (current key).elim 0 fun block => block.refCnt.toNat := by
  cases found : current key with
  | none => simp [published, found]
  | some block =>
      by_cases pending : key ∈ keys ∧ block.refCnt < 0
      · have none : block.refCnt.toNat = 0 := Int.toNat_eq_zero.mpr pending.2.le
        simp [published, found, pending, BlockStatus.withRefCnt, none]
      · simp [published, found, pending]

theorem pins_discarded (current : OffloadKey → Option BlockStatus) (keys : List OffloadKey)
    (key : OffloadKey) : (discarded current keys key).elim 0 (fun block => block.refCnt.toNat) =
      (current key).elim 0 fun block => block.refCnt.toNat := by
  cases found : current key with
  | none => simp [discarded, found]
  | some block =>
      by_cases pending : key ∈ keys ∧ block.refCnt < 0
      · have none : block.refCnt.toNat = 0 := Int.toNat_eq_zero.mpr pending.2.le
        simp [discarded, found, pending, none]
      · simp [discarded, found, pending]

variable [LawfulCachePolicy P]

theorem complete_store_pins {primary after : CPUOffloadingManager P} {keys : List OffloadKey}
    {success : Bool} (pool : PoolInv primary)
    (completed : primary.completeStore keys success = .ok after) :
    PoolInv after ∧ ∀ key, pins after key = pins primary key := by
  obtain ⟨expected, ok, afterPool, get⟩ := complete_store_ok pool keys success
  rw [completed] at ok
  cases ok
  refine ⟨afterPool, fun key => ?_⟩
  unfold pins
  rw [get]
  cases success with
  | true => exact pins_published primary.get keys key
  | false => exact pins_discarded primary.get keys key

/-- Only idle blocks are evicted, and a reserved block has no pins yet. -/
theorem prepare_store_pins {primary after : CPUOffloadingManager P} {keys : List OffloadKey}
    {bypassThreshold : Bool} {output : Option PrepareStoreOutput} (distinct : keys.Nodup)
    (pool : PoolInv primary)
    (prepared : primary.prepareStore keys bypassThreshold = .ok (output, after)) :
    PoolInv after ∧ ∀ key, pins after key = pins primary key := by
  obtain ⟨afterPool, outcome⟩ := prepare_store_spec distinct prepared pool
  refine ⟨afterPool, fun key => ?_⟩
  cases output with
  | none => exact pins_congr (congrFun outcome key)
  | some output =>
      have reserved : StoreReserved primary keys output after := outcome
      unfold pins
      rw [reserved.get_after]
      cases found : reservedAt output.keysToStore output.storeSpec key with
      | some blockId =>
          have member : key ∈ output.keysToStore :=
            (reserved_at_is_some reserved.length_eq key).mp (by rw [found]; rfl)
          rw [reserved.fresh key member]
          rfl
      | none =>
          by_cases evicted : key ∈ output.evictedKeys
          · obtain ⟨block, bound, idle⟩ := reserved.evicted_idle key evicted
            simp [evicted, bound, idle]
          · simp [evicted]

theorem prepare_load_pins {primary after : CPUOffloadingManager P} {keys : List OffloadKey}
    {blockIds : List Nat} (pool : PoolInv primary)
    (loaded : primary.prepareLoad keys = .ok (blockIds, after)) :
    PoolInv after ∧ ∀ key, pins after key = pins primary key + keys.count key := by
  have ready := prepare_load_ready keys pool loaded
  obtain ⟨expected, last, ok, afterPool, _, get⟩ := prepare_load_ok keys pool ready
  rw [loaded] at ok
  cases ok
  refine ⟨afterPool, fun key => ?_⟩
  unfold pins
  rw [get, shifted]
  by_cases member : key ∈ keys
  · obtain ⟨block, bound, nonneg⟩ := ready key member
    rw [bound, Option.map_some, Option.elim_some, Option.elim_some, with_ref_cnt_ref_cnt]
    omega
  · rw [List.count_eq_zero_of_not_mem member]
    cases primary.get key with
    | none => rfl
    | some block => simp [BlockStatus.withRefCnt]

/-- Releasing is only possible with enough pins. -/
theorem complete_load_held (keys : List OffloadKey) {primary after : CPUOffloadingManager P}
    (pool : PoolInv primary) (completed : primary.completeLoad keys = .ok after) :
    PoolInv after ∧ ∀ key, pins after key + keys.count key = pins primary key := by
  induction keys generalizing primary with
  | nil =>
      cases completed
      exact ⟨pool, fun _ => rfl⟩
  | cons first rest ih =>
      obtain ⟨lowered, unpinOk, restOk⟩ := bind_eq_ok.mp completed
      obtain ⟨block, bound, held⟩ := unpin_block_held unpinOk
      obtain ⟨unpinned, ok, lowerPool, lowerGet⟩ := unpin_block_ok pool bound held
      rw [unpinOk] at ok
      cases ok
      obtain ⟨laterPool, later⟩ := ih lowerPool restOk
      refine ⟨laterPool, fun key => ?_⟩
      have step := later key
      unfold pins at step ⊢
      rw [lowerGet] at step
      by_cases same : key = first
      · subst same
        rw [if_pos rfl, Option.elim_some, with_ref_cnt_ref_cnt] at step
        rw [List.count_cons_self, bound, Option.elim_some]
        omega
      · rw [if_neg same] at step
        rwa [List.count_cons_of_ne (Ne.symm same)]

end Pins

section Slots

theorem key_has_slot {entry : Prepared} (sized : entry.blockIds.length = entry.keys.length)
    {key : OffloadKey} (member : key ∈ entry.keys) :
    ∃ blockId, (key, blockId) ∈ entry.transfer.slots := by
  obtain ⟨index, within, rfl⟩ := List.getElem_of_mem member
  have zipped : index < (entry.keys.zip entry.blockIds).length := by
    rw [List.length_zip, sized, Nat.min_self]
    exact within
  have slot := List.getElem_mem zipped
  rw [List.getElem_zip] at slot
  exact ⟨_, slot⟩

theorem slot_key {entry : Prepared} {slot : OffloadKey × Nat}
    (member : slot ∈ entry.transfer.slots) : slot.1 ∈ entry.keys :=
  (List.of_mem_zip member).1

end Slots

section Custody

variable [CachePolicy P]

/-- The keys of the loads in flight, each as often as there are loads of it. -/
def loadPins (jobs : OrderedMap JobId TransferJobStatus) : Multiset OffloadKey :=
  mapTotal jobs fun job => if job.isStore then 0 else (job.keys : Multiset OffloadKey)

/-- A job in flight and its transfer. -/
def Live (books : Desk (CpuKeeper P)) (jobId : JobId) (entry : Prepared) : Prop :=
  (∃ job, books.jobs.get? jobId = some job) ∧ (prepared books.manager)[jobId]? = some entry

variable [LawfulCachePolicy P]

structure Custody (books : Desk (CpuKeeper P)) : Prop where
  pool : PoolInv (tier books.manager)
  counted : (prepared books.manager).length = books.jobCounter
  sized : ∀ entry ∈ prepared books.manager, entry.blockIds.length = entry.keys.length
  recorded : ∀ jobId job, books.jobs.get? jobId = some job →
    ∃ entry, (prepared books.manager)[jobId]? = some entry ∧ entry.isStore = job.isStore ∧
      job.keys = entry.keys.dedup
  reserved : ∀ jobId entry, Live books jobId entry → entry.isStore = true →
    ∀ slot ∈ entry.transfer.slots,
      (tier books.manager).get slot.1 = some (BlockStatus.new slot.2)
  apart : ∀ first second left right, Live books first left → Live books second right →
    first ≠ second → left.isStore = true → right.isStore = true →
    ∀ key ∈ left.keys, key ∉ right.keys
  readable : ∀ jobId entry, Live books jobId entry → entry.isStore = false →
    ∀ slot ∈ entry.transfer.slots, ∃ block, (tier books.manager).get slot.1 = some block ∧
      0 ≤ block.refCnt ∧ block.blockId = slot.2
  pinned : ∀ key, (loadPins books.jobs).count key ≤ pins (tier books.manager) key

variable {books : Desk (CpuKeeper P)}

/-- A key that a load in flight reads is pinned. -/
theorem load_pinned (custody : Custody books) {jobId : JobId} {entry : Prepared}
    (live : Live books jobId entry) (isLoad : entry.isStore = false) {key : OffloadKey}
    (member : key ∈ entry.keys) : 0 < pins (tier books.manager) key := by
  obtain ⟨⟨job, found⟩, isEntry⟩ := live
  obtain ⟨other, isOther, same, keys⟩ := custody.recorded jobId job found
  cases isEntry.symm.trans isOther
  apply Nat.lt_of_lt_of_le _ (custody.pinned key)
  rw [Multiset.count_pos, loadPins, mem_map_total]
  refine ⟨jobId, job, found, ?_⟩
  rw [if_neg (by rw [← same, isLoad]; exact Bool.false_ne_true), keys]
  exact Multiset.mem_coe.mpr (List.mem_dedup.mpr member)

/-- The books after a call that binds the same blocks and records nothing, where the jobs
still wait for the same keys. -/
theorem custody_of_same {after : Desk (CpuKeeper P)} (custody : Custody books)
    (pool : PoolInv (tier after.manager))
    (same : (tier after.manager).get = (tier books.manager).get)
    (unrecorded : prepared after.manager = prepared books.manager)
    (counter : after.jobCounter = books.jobCounter)
    (jobs : ∀ jobId, (after.jobs.get? jobId).map (fun job => (job.isStore, job.keys)) =
      (books.jobs.get? jobId).map fun job => (job.isStore, job.keys))
    (loads : loadPins after.jobs = loadPins books.jobs) : Custody after := by
  have found : ∀ jobId job, after.jobs.get? jobId = some job →
      ∃ earlier, books.jobs.get? jobId = some earlier ∧ earlier.isStore = job.isStore ∧
        earlier.keys = job.keys := by
    intro jobId job isJob
    have shape := jobs jobId
    rw [isJob, Option.map_some] at shape
    obtain ⟨earlier, isEarlier, shape⟩ := Option.map_eq_some_iff.mp shape.symm
    exact ⟨earlier, isEarlier, congrArg Prod.fst shape, congrArg Prod.snd shape⟩
  have live : ∀ jobId entry, Live after jobId entry → Live books jobId entry := by
    rintro jobId entry ⟨⟨job, isJob⟩, isEntry⟩
    obtain ⟨earlier, isEarlier, _⟩ := found jobId job isJob
    exact ⟨⟨earlier, isEarlier⟩, unrecorded ▸ isEntry⟩
  constructor
  · exact pool
  · rw [unrecorded, counter]
    exact custody.counted
  · rw [unrecorded]
    exact custody.sized
  · intro jobId job isJob
    obtain ⟨earlier, isEarlier, isStore, keys⟩ := found jobId job isJob
    obtain ⟨entry, isEntry, shape⟩ := custody.recorded jobId earlier isEarlier
    rw [unrecorded, ← isStore, ← keys]
    exact ⟨entry, isEntry, shape⟩
  · intro jobId entry isLive isStore slot member
    rw [same]
    exact custody.reserved jobId entry (live jobId entry isLive) isStore slot member
  · intro first second left right isLeft isRight
    exact custody.apart first second left right (live _ _ isLeft) (live _ _ isRight)
  · intro jobId entry isLive isLoad slot member
    rw [same]
    exact custody.readable jobId entry (live jobId entry isLive) isLoad slot member
  · intro key
    rw [loads, pins_congr (congrFun same key)]
    exact custody.pinned key

/-- A call to the manager alone. -/
theorem custody_with_manager {manager : CpuKeeper P} (custody : Custody books)
    (pool : PoolInv (tier manager)) (same : (tier manager).get = (tier books.manager).get)
    (unrecorded : prepared manager = prepared books.manager) :
    Custody (books.withManager manager) :=
  custody_of_same custody pool same unrecorded rfl (fun _ => rfl) rfl

section Enter

variable {manager : CpuKeeper P} {reqId : ReqId} {request : ReqBooks} {job : TransferJobStatus}
  {fenced : List Nat} {entry : Prepared}

/-- A job that enters: it is live under the next id, and the others are live as before. -/
theorem live_enter (custody : Custody books)
    (recorded : prepared manager = prepared books.manager ++ [entry]) {jobId : JobId}
    {other : Prepared}
    (live : Live ((books.withManager manager).enter reqId request job fenced) jobId other) :
    jobId = books.jobCounter ∧ other = entry ∨
      jobId ≠ books.jobCounter ∧ Live books jobId other := by
  obtain ⟨⟨found, isFound⟩, isOther⟩ := live
  have isFound := (get_enter_job job fenced jobId).symm.trans isFound
  have isOther : (prepared manager)[jobId]? = some other := isOther
  rw [recorded] at isOther
  by_cases same : jobId = books.jobCounter
  · refine .inl ⟨same, ?_⟩
    rw [same, ← custody.counted, List.getElem?_concat_length] at isOther
    exact (Option.some.inj isOther).symm
  · refine .inr ⟨same, ?_⟩
    have isFound : books.jobs.get? jobId = some found := (if_neg same).symm.trans isFound
    refine ⟨⟨found, isFound⟩, ?_⟩
    obtain ⟨earlier, isEarlier, _⟩ := custody.recorded jobId found isFound
    rw [earlier_entry isEarlier] at isOther
    rw [isEarlier, isOther]

theorem counted_enter (custody : Custody books)
    (recorded : prepared manager = prepared books.manager ++ [entry]) :
    (prepared manager).length = books.jobCounter + 1 := by
  rw [recorded, List.length_append, custody.counted]
  rfl

theorem recorded_enter (custody : Custody books)
    (recorded : prepared manager = prepared books.manager ++ [entry])
    (kind : entry.isStore = job.isStore) (keys : job.keys = entry.keys.dedup) (jobId : JobId)
    (found : TransferJobStatus) (isFound : ((books.withManager manager).enter reqId request job
      fenced).jobs.get? jobId = some found) :
    ∃ other, (prepared manager)[jobId]? = some other ∧ other.isStore = found.isStore ∧
      found.keys = other.keys.dedup := by
  have isFound := (get_enter_job job fenced jobId).symm.trans isFound
  rw [recorded]
  split at isFound
  · rename_i same
    cases isFound
    refine ⟨entry, ?_, kind, keys⟩
    rw [same]
    exact custody.counted ▸ List.getElem?_concat_length
  · obtain ⟨earlier, isEarlier, shape⟩ := custody.recorded jobId found isFound
    exact ⟨earlier, earlier_entry isEarlier _, shape⟩

omit [CachePolicy P] [LawfulCachePolicy P] in
theorem load_pins_enter (fresh : books.jobs.get? books.jobCounter = none) :
    loadPins ((books.withManager manager).enter reqId request job fenced).jobs =
      loadPins books.jobs + if job.isStore then 0 else (job.keys : Multiset OffloadKey) := by
  have moved := map_total_set books.jobs books.jobCounter job
    fun job => if job.isStore then 0 else (job.keys : Multiset OffloadKey)
  rw [fresh, Option.elim_none, add_zero] at moved
  exact moved

/-- A store of keys that were not bound takes blocks that no job in flight has. -/
theorem custody_store (custody : Custody books)
    (fresh : books.jobs.get? books.jobCounter = none) {keys : List OffloadKey}
    {output : PrepareStoreOutput} (pool : PoolInv (tier manager))
    (reserve : StoreReserved (tier books.manager) keys output (tier manager))
    (kept : ∀ key, pins (tier manager) key = pins (tier books.manager) key)
    (recorded : prepared manager =
      prepared books.manager ++ [⟨true, output.keysToStore, output.storeSpec⟩])
    (isStore : job.isStore = true) (jobKeys : job.keys = output.keysToStore.dedup) :
    Custody ((books.withManager manager).enter reqId request job fenced) := by
  have held : ∀ key block, (tier books.manager).get key = some block → block.refCnt ≠ 0 →
      (tier manager).get key = some block := by
    intro key block bound busy
    have absent : key ∉ output.keysToStore := by
      intro member
      rw [reserve.fresh key member] at bound
      cases bound
    have stays : key ∉ output.evictedKeys := by
      intro member
      obtain ⟨idle, found, zero⟩ := reserve.evicted_idle key member
      cases bound.symm.trans found
      exact busy zero
    rw [reserve.get_after, reserved_at_eq_none reserve.length_eq absent, if_neg stays]
    exact bound
  have counts := counted_enter custody recorded
  constructor
  · exact pool
  · exact counts
  · intro entry member
    change entry ∈ prepared manager at member
    rw [recorded, List.mem_append, List.mem_singleton] at member
    rcases member with earlier | rfl
    · exact custody.sized entry earlier
    · exact reserve.length_eq
  · exact recorded_enter custody recorded isStore.symm jobKeys
  · intro jobId entry live entryStore slot member
    rcases live_enter custody recorded live with ⟨_, rfl⟩ | ⟨_, earlier⟩
    · show (tier manager).get slot.1 = _
      rw [reserve.get_after, reserved_at_mem reserve.length_eq reserve.distinct member]
      rfl
    · apply held _ _ (custody.reserved jobId entry earlier entryStore slot member)
      rw [new_ref_cnt]
      decide
  · -- the keys of the stores in flight are bound, the accepted ones were not
    have bound : ∀ jobId entry, Live books jobId entry → entry.isStore = true →
        ∀ key ∈ entry.keys, key ∉ output.keysToStore := by
      intro jobId entry live entryStore key member accepted
      obtain ⟨blockId, slot⟩ := key_has_slot
        (custody.sized entry (List.mem_of_getElem? live.2)) member
      have isBound := custody.reserved jobId entry live entryStore _ slot
      rw [reserve.fresh key accepted] at isBound
      cases isBound
    intro first second left right isLeft isRight different leftStore rightStore key member
    rcases live_enter custody recorded isLeft with ⟨rfl, rfl⟩ | ⟨_, earlierLeft⟩
    · rcases live_enter custody recorded isRight with ⟨rfl, _⟩ | ⟨_, earlierRight⟩
      · exact absurd rfl different
      · exact fun other => bound second right earlierRight rightStore key other member
    · rcases live_enter custody recorded isRight with ⟨rfl, rfl⟩ | ⟨_, earlierRight⟩
      · exact bound first left earlierLeft leftStore key member
      · exact custody.apart first second left right earlierLeft earlierRight different leftStore
          rightStore key member
  · intro jobId entry live isLoad slot member
    rcases live_enter custody recorded live with ⟨_, rfl⟩ | ⟨_, earlier⟩
    · cases isLoad
    · obtain ⟨block, isBound, ready, isBlock⟩ :=
        custody.readable jobId entry earlier isLoad slot member
      have positive := load_pinned custody earlier isLoad (slot_key member)
      unfold pins at positive
      rw [isBound, Option.elim_some] at positive
      exact ⟨block, held _ _ isBound (by omega), ready, isBlock⟩
  · intro key
    rw [load_pins_enter fresh, if_pos isStore, add_zero]
    exact (custody.pinned key).trans_eq (kept key).symm

/-- A load of ready keys pins them on their blocks. -/
theorem custody_load (custody : Custody books)
    (fresh : books.jobs.get? books.jobCounter = none) {keys : List OffloadKey}
    {blockIds : List Nat}
    (call : (tier books.manager).prepareLoad keys = .ok (blockIds, tier manager))
    (recorded : prepared manager = prepared books.manager ++ [⟨false, keys, blockIds⟩])
    (isLoad : job.isStore = false) (jobKeys : job.keys = keys.dedup) :
    Custody ((books.withManager manager).enter reqId request job fenced) := by
  have ready := prepare_load_ready keys custody.pool call
  obtain ⟨expected, last, ok, pool, ids, get⟩ := prepare_load_ok keys custody.pool ready
  rw [call] at ok
  cases ok
  have pinsAfter := (prepare_load_pins custody.pool call).2
  have lengths : blockIds.length = keys.length := by
    have same := congrArg List.length ids
    rwa [List.length_map, List.length_map] at same
  have shift : ∀ key block, (tier books.manager).get key = some block →
      (tier manager).get key = some (block.withRefCnt (block.refCnt + keys.count key)) := by
    intro key block bound
    rw [get, shifted, bound]
    rfl
  have counts := counted_enter custody recorded
  constructor
  · exact pool
  · exact counts
  · intro entry member
    change entry ∈ prepared manager at member
    rw [recorded, List.mem_append, List.mem_singleton] at member
    rcases member with earlier | rfl
    · exact custody.sized entry earlier
    · exact lengths
  · exact recorded_enter custody recorded isLoad.symm jobKeys
  · intro jobId entry live isStore slot member
    rcases live_enter custody recorded live with ⟨_, rfl⟩ | ⟨_, earlier⟩
    · cases isStore
    · have pending := custody.reserved jobId entry earlier isStore slot member
      have untouched : slot.1 ∉ keys := by
        intro asked
        obtain ⟨block, bound, nonneg⟩ := ready slot.1 asked
        cases pending.symm.trans bound
        rw [new_ref_cnt] at nonneg
        omega
      have same := shift slot.1 _ pending
      rw [List.count_eq_zero_of_not_mem untouched] at same
      exact same
  · intro first second left right isLeft isRight different leftStore rightStore
    rcases live_enter custody recorded isLeft with ⟨_, rfl⟩ | ⟨_, earlierLeft⟩
    · cases leftStore
    · rcases live_enter custody recorded isRight with ⟨_, rfl⟩ | ⟨_, earlierRight⟩
      · cases rightStore
      · exact custody.apart first second left right earlierLeft earlierRight different leftStore
          rightStore
  · intro jobId entry live entryLoad slot member
    rcases live_enter custody recorded live with ⟨_, rfl⟩ | ⟨_, earlier⟩
    · obtain ⟨block, bound, nonneg⟩ := ready slot.1 (slot_key member)
      refine ⟨_, shift slot.1 block bound, ?_, ?_⟩
      · rw [with_ref_cnt_ref_cnt]
        omega
      · rw [with_ref_cnt_block_id]
        obtain ⟨index, within, isSlot⟩ := List.getElem_of_mem member
        have zipped := List.getElem?_eq_some_iff.mpr ⟨within, isSlot⟩
        obtain ⟨isKey, isId⟩ := List.getElem?_zip_eq_some.mp zipped
        have named := congrArg (·[index]?) ids
        simp only [List.getElem?_map, isKey, isId, Option.map_some, bound] at named
        exact (Option.some.inj (Option.some.inj named)).symm
    · obtain ⟨block, bound, nonneg, isBlock⟩ :=
        custody.readable jobId entry earlier entryLoad slot member
      refine ⟨_, shift slot.1 block bound, ?_, isBlock⟩
      rw [with_ref_cnt_ref_cnt]
      omega
  · intro key
    rw [load_pins_enter fresh, if_neg (by rw [isLoad]; exact Bool.false_ne_true), Multiset.count_add,
      Multiset.coe_count, jobKeys]
    have once : keys.dedup.count key ≤ keys.count key := (List.dedup_sublist keys).count_le key
    have before := custody.pinned key
    have after := pinsAfter key
    show _ ≤ pins (tier manager) key
    omega

end Enter

section Done

variable {after : Desk (CpuKeeper P)} {jobId : JobId} {job : TransferJobStatus}

omit [CachePolicy P] [LawfulCachePolicy P] in
theorem live_drop (unrecorded : prepared after.manager = prepared books.manager)
    (jobs : after.jobs = books.jobs.erase jobId) {other : JobId} {entry : Prepared}
    (live : Live after other entry) : other ≠ jobId ∧ Live books other entry := by
  obtain ⟨⟨found, isFound⟩, isEntry⟩ := live
  rw [jobs, OrderedMap.get_erase] at isFound
  split at isFound
  · cases isFound
  · rename_i different
    exact ⟨different, ⟨found, isFound⟩, unrecorded ▸ isEntry⟩

omit [CachePolicy P] [LawfulCachePolicy P] in
theorem load_pins_drop (jobs : after.jobs = books.jobs.erase jobId)
    (found : books.jobs.get? jobId = some job) :
    loadPins after.jobs + (if job.isStore then 0 else (job.keys : Multiset OffloadKey)) =
      loadPins books.jobs := by
  have moved := map_total_erase books.jobs jobId
    fun job => if job.isStore then 0 else (job.keys : Multiset OffloadKey)
  rw [found, Option.elim_some, ← jobs] at moved
  exact moved

theorem recorded_drop (custody : Custody books)
    (unrecorded : prepared after.manager = prepared books.manager)
    (jobs : after.jobs = books.jobs.erase jobId) (other : JobId) (found : TransferJobStatus)
    (isFound : after.jobs.get? other = some found) :
    ∃ entry, (prepared after.manager)[other]? = some entry ∧ entry.isStore = found.isStore ∧
      found.keys = entry.keys.dedup := by
  rw [jobs, OrderedMap.get_erase] at isFound
  split at isFound
  · cases isFound
  · rw [unrecorded]
    exact custody.recorded other found isFound

/-- The store of a live job and its keys. -/
theorem live_of_found (custody : Custody books) (found : books.jobs.get? jobId = some job) :
    ∃ entry, Live books jobId entry ∧ entry.isStore = job.isStore ∧
      ∀ key, key ∈ job.keys ↔ key ∈ entry.keys := by
  obtain ⟨entry, isEntry, kind, keys⟩ := custody.recorded jobId job found
  refine ⟨entry, ⟨⟨job, found⟩, isEntry⟩, kind, fun key => ?_⟩
  rw [keys]
  exact List.mem_dedup

/-- A store that is complete makes its own keys ready and leaves the other blocks alone. -/
theorem custody_store_done (custody : Custody books) (found : books.jobs.get? jobId = some job)
    (isStore : job.isStore = true)
    (call : (tier books.manager).completeStore job.keys true = .ok (tier after.manager))
    (unrecorded : prepared after.manager = prepared books.manager)
    (counter : after.jobCounter = books.jobCounter)
    (jobs : after.jobs = books.jobs.erase jobId) : Custody after := by
  obtain ⟨pool, samePins⟩ := complete_store_pins custody.pool call
  obtain ⟨expected, ok, _, get⟩ := complete_store_ok custody.pool job.keys true
  cases call.symm.trans ok
  rw [if_pos rfl] at get
  obtain ⟨own, ownLive, ownKind, ownKeys⟩ := live_of_found custody found
  constructor
  · exact pool
  · rw [unrecorded, counter]
    exact custody.counted
  · rw [unrecorded]
    exact custody.sized
  · exact recorded_drop custody unrecorded jobs
  · intro other entry live entryStore slot member
    obtain ⟨different, earlier⟩ := live_drop unrecorded jobs live
    have outside : slot.1 ∉ job.keys := by
      intro inside
      exact custody.apart other jobId entry own earlier ownLive different entryStore
        (ownKind.trans isStore) slot.1 (slot_key member) ((ownKeys slot.1).mp inside)
    rw [get, published, custody.reserved other entry earlier entryStore slot member]
    exact congrArg some (if_neg fun both => outside both.1)
  · intro first second left right isLeft isRight
    exact custody.apart first second left right (live_drop unrecorded jobs isLeft).2
      (live_drop unrecorded jobs isRight).2
  · intro other entry live isLoad slot member
    obtain ⟨block, bound, ready, isBlock⟩ :=
      custody.readable other entry (live_drop unrecorded jobs live).2 isLoad slot member
    refine ⟨block, ?_, ready, isBlock⟩
    rw [get, published, bound]
    exact congrArg some (if_neg fun both => absurd both.2 (not_lt.mpr ready))
  · intro key
    have moved := load_pins_drop jobs found
    rw [if_pos isStore, add_zero] at moved
    rw [moved, samePins]
    exact custody.pinned key

/-- A load that is complete gives back its own pins. -/
theorem custody_load_done (custody : Custody books) (found : books.jobs.get? jobId = some job)
    (isLoad : job.isStore = false)
    (call : (tier books.manager).completeLoad job.keys = .ok (tier after.manager))
    (unrecorded : prepared after.manager = prepared books.manager)
    (counter : after.jobCounter = books.jobCounter)
    (jobs : after.jobs = books.jobs.erase jobId) :
    Custody after ∧ ∀ key block, (tier after.manager).get key = some block → 0 ≤ block.refCnt →
      ∃ earlier, (tier books.manager).get key = some earlier ∧ 0 ≤ earlier.refCnt ∧
        earlier.blockId = block.blockId := by
  obtain ⟨pool, pinsAfter⟩ := complete_load_held job.keys custody.pool call
  have moved := load_pins_drop jobs found
  rw [if_neg (by rw [isLoad]; exact Bool.false_ne_true)] at moved
  have enough : ∀ key ∈ job.keys, ∃ block, (tier books.manager).get key = some block ∧
      (job.keys.count key : Int) ≤ block.refCnt := by
    intro key member
    have positive : 0 < job.keys.count key := List.count_pos_iff.mpr member
    have released := pinsAfter key
    cases bound : (tier books.manager).get key with
    | none =>
        unfold pins at released
        rw [bound, Option.elim_none] at released
        omega
    | some block =>
        refine ⟨block, rfl, ?_⟩
        have most : pins (tier books.manager) key = block.refCnt.toNat := by
          rw [pins, bound]
          rfl
        omega
  obtain ⟨expected, ok, _, get⟩ := complete_load_ok job.keys custody.pool enough
  cases call.symm.trans ok
  have shift : ∀ key block, (tier books.manager).get key = some block →
      (tier after.manager).get key =
        some (block.withRefCnt (block.refCnt + -job.keys.count key)) := by
    intro key block bound
    rw [get, shifted, bound]
    rfl
  have stillReady : ∀ key block, (tier books.manager).get key = some block → 0 ≤ block.refCnt →
      0 ≤ block.refCnt + -(job.keys.count key : Int) := by
    intro key block bound ready
    by_cases member : key ∈ job.keys
    · obtain ⟨other, isOther, few⟩ := enough key member
      cases bound.symm.trans isOther
      omega
    · rw [List.count_eq_zero_of_not_mem member]
      omega
  refine ⟨?_, ?_⟩
  · constructor
    · exact pool
    · rw [unrecorded, counter]
      exact custody.counted
    · rw [unrecorded]
      exact custody.sized
    · exact recorded_drop custody unrecorded jobs
    · intro other entry live isStore slot member
      have pending := custody.reserved other entry (live_drop unrecorded jobs live).2 isStore slot
        member
      have untouched : slot.1 ∉ job.keys := by
        intro asked
        obtain ⟨block, bound, few⟩ := enough slot.1 asked
        cases pending.symm.trans bound
        rw [new_ref_cnt] at few
        omega
      have same := shift slot.1 _ pending
      rw [List.count_eq_zero_of_not_mem untouched] at same
      exact same
    · intro first second left right isLeft isRight
      exact custody.apart first second left right (live_drop unrecorded jobs isLeft).2
        (live_drop unrecorded jobs isRight).2
    · intro other entry live entryLoad slot member
      obtain ⟨block, bound, ready, isBlock⟩ :=
        custody.readable other entry (live_drop unrecorded jobs live).2 entryLoad slot member
      exact ⟨_, shift slot.1 block bound, stillReady slot.1 block bound ready, isBlock⟩
    · intro key
      have before := custody.pinned key
      rw [← moved, Multiset.count_add, Multiset.coe_count] at before
      have released := pinsAfter key
      omega
  · intro key block bound ready
    cases earlierBound : (tier books.manager).get key with
    | none =>
        rw [get, shifted, earlierBound] at bound
        cases bound
    | some earlier =>
        cases (shift key earlier earlierBound).symm.trans bound
        rw [with_ref_cnt_ref_cnt] at ready
        exact ⟨earlier, rfl, by omega, rfl⟩

/-- A reset leaves no block bound and no job in flight. -/
theorem custody_reset (custody : Custody books) {manager : CpuKeeper P}
    (reset : tier manager = (tier books.manager).resetCache)
    (unrecorded : prepared manager = prepared books.manager) :
    Custody (books.reset.withManager manager) := by
  have gone : ∀ jobId entry, ¬Live (books.reset.withManager manager) jobId entry := by
    rintro jobId entry ⟨⟨job, found⟩, _⟩
    cases found
  obtain ⟨pool, _⟩ := reset_cache_spec (tier books.manager)
  have counts : (prepared manager).length = books.jobCounter := by
    rw [unrecorded]
    exact custody.counted
  constructor
  · exact reset ▸ pool
  · exact counts
  · intro entry member
    exact custody.sized entry (unrecorded ▸ member)
  · intro jobId job found
    cases found
  · exact fun jobId entry live => absurd live (gone jobId entry)
  · exact fun first _ left _ isLeft => absurd isLeft (gone first left)
  · exact fun jobId entry live => absurd live (gone jobId entry)
  · exact fun key => Nat.zero_le _

end Done

end Custody

end KvOffload.BlockCustody
