import KvOffload.ArcPolicy
import KvOffload.CountWidth
import KvOffload.LruPolicy
import Mathlib.Logic.Relation

/-!
# Runs of the CPU manager

A run interleaves the manager's operations in any order. Beside the manager it
carries the block ids handed out in load and store specs that are not yet
completed, so that the runs can say for how long an id stays taken. The reference
counts of a run have 32 bits; the pool stays sound as long as they fit.
-/

namespace KvOffload.CpuManagerRuns

open KvOffload.Base KvOffload.PolicyInterface KvOffload.FiniteTotals
open KvOffload.CpuManager KvOffload.CpuPool KvOffload.CpuManagerSpec KvOffload.CountWidth

set_option autoImplicit false

/-- A block id handed out for a key. -/
abbrev Handout := OffloadKey × Nat

structure CpuRun (P : Type) where
  manager : CPUOffloadingManager P
  loads : List (List Handout)
  stores : List Handout

variable {P : Type}

def CpuRun.handouts (run : CpuRun P) : List Handout := run.loads.flatten ++ run.stores

def CpuRun.start [CachePolicy P] (params : CpuManagerParams) (policy : P) : CpuRun P :=
  ⟨CPUOffloadingManager.new params policy, [], []⟩

variable [CachePolicy P]

/-- A load is completed with the keys it was prepared with; a store may be
completed with any keys, and ends the handouts of those keys. -/
inductive CpuStep : CpuRun P → CpuRun P → Prop where
  | lookup {run : CpuRun P} {key : OffloadKey} {result : LookupResult}
      {after : CPUOffloadingManager P} (looked : run.manager.lookup key = .ok (result, after)) :
      CpuStep run { run with manager := after }
  | touch {run : CpuRun P} (keys : List OffloadKey) :
      CpuStep run { run with manager := run.manager.touch keys }
  | prepareStore {run : CpuRun P} {keys : List OffloadKey} {bypassThreshold : Bool}
      {output : PrepareStoreOutput} {after : CPUOffloadingManager P} (distinct : keys.Nodup)
      (prepared : run.manager.prepareStore keys bypassThreshold = .ok (some output, after)) :
      CpuStep run { run with
        manager := after
        stores := output.keysToStore.zip output.storeSpec ++ run.stores }
  | refuseStore {run : CpuRun P} {keys : List OffloadKey} {bypassThreshold : Bool}
      {after : CPUOffloadingManager P} (distinct : keys.Nodup)
      (refused : run.manager.prepareStore keys bypassThreshold = .ok (none, after)) :
      CpuStep run { run with manager := after }
  | completeStore {run : CpuRun P} {keys : List OffloadKey} {success : Bool}
      {after : CPUOffloadingManager P}
      (completed : run.manager.completeStore keys success = .ok after) :
      CpuStep run { run with
        manager := after
        stores := run.stores.filter fun handout => handout.1 ∉ keys }
  | prepareLoad {run : CpuRun P} {keys : List OffloadKey} {blockIds : List Nat}
      {after : CPUOffloadingManager P}
      (ready : ∀ key ∈ keys, run.manager.lookupResult key = .hit)
      (prepared : prepareLoad32 run.manager keys = .ok (blockIds, after)) :
      CpuStep run { run with manager := after, loads := keys.zip blockIds :: run.loads }
  | completeLoad {run : CpuRun P} {spec : List Handout} {after : CPUOffloadingManager P}
      (outstanding : spec ∈ run.loads)
      (completed : run.manager.completeLoad (spec.map Prod.fst) = .ok after) :
      CpuStep run { run with manager := after, loads := run.loads.erase spec }
  | resetCache {run : CpuRun P} : CpuStep run ⟨run.manager.resetCache, [], []⟩

/-- Loads recorded against a key. -/
def loadCount (loads : List (List Handout)) (key : OffloadKey) : Nat :=
  (loads.flatten.map Prod.fst).count key

/-- No key has so many loads outstanding that its count leaves 32 bits. -/
def LoadsFit (run : CpuRun P) : Prop := ∀ key, loadCount run.loads key < 2 ^ 31

def FitStep (run next : CpuRun P) : Prop := CpuStep run next ∧ LoadsFit next

/-- The reference count of a ready block is the number of outstanding loads of
its key, and every handout is still bound. -/
structure RunInv [LawfulCachePolicy P] (run : CpuRun P) : Prop where
  pool : PoolInv run.manager
  counted : ∀ key block, run.manager.get key = some block → 0 ≤ block.refCnt →
    block.refCnt = loadCount run.loads key
  loading : ∀ handout ∈ run.loads.flatten, ∃ block,
    run.manager.get handout.1 = some block ∧ block.blockId = handout.2 ∧ 0 ≤ block.refCnt
  storing : ∀ handout ∈ run.stores,
    run.manager.get handout.1 = some (BlockStatus.new handout.2)

theorem load_count_pos_iff (loads : List (List Handout)) (key : OffloadKey) :
    0 < loadCount loads key ↔ ∃ handout ∈ loads.flatten, handout.1 = key := by
  rw [loadCount, List.count_pos_iff, List.mem_map]

section Steps

variable [LawfulCachePolicy P] {run : CpuRun P}

/-- A key that is absent or pending has no outstanding load. -/
theorem no_load_of_not_ready (inv : RunInv run) {key : OffloadKey}
    (notReady : ∀ block, run.manager.get key = some block → block.refCnt < 0) :
    loadCount run.loads key = 0 := by
  by_contra nonzero
  obtain ⟨handout, member, rfl⟩ :=
    (load_count_pos_iff run.loads key).mp (Nat.pos_of_ne_zero nonzero)
  obtain ⟨block, bound, _, ready⟩ := inv.loading handout member
  have pending := notReady block bound
  omega

theorem same_get_keeps_run {after : CPUOffloadingManager P} (inv : RunInv run)
    (pool : PoolInv after) (same : after.get = run.manager.get) :
    RunInv { run with manager := after } := by
  constructor
  · exact pool
  · simpa only [same] using inv.counted
  · simpa only [same] using inv.loading
  · simpa only [same] using inv.storing

theorem reserve_keeps_run {keys : List OffloadKey} {output : PrepareStoreOutput}
    {after : CPUOffloadingManager P} (inv : RunInv run) (pool : PoolInv after)
    (reserved : StoreReserved run.manager keys output after) :
    RunInv { run with
      manager := after
      stores := output.keysToStore.zip output.storeSpec ++ run.stores } := by
  have kept : ∀ key block, run.manager.get key = some block → block.refCnt ≠ 0 →
      after.get key = some block := by
    intro key block bound busy
    have notStored : key ∉ output.keysToStore := fun member => by
      rw [reserved.fresh key member] at bound
      cases bound
    have notEvicted : key ∉ output.evictedKeys := fun member => by
      obtain ⟨idleBlock, idleBound, idle⟩ := reserved.evicted_idle key member
      rw [bound] at idleBound
      cases idleBound
      exact busy idle
    rw [reserved.get_after, reserved_at_eq_none reserved.length_eq notStored,
      if_neg notEvicted]
    simpa using bound
  constructor
  · exact pool
  · intro key block found ready
    rw [reserved.get_after] at found
    rcases Option.or_eq_some_iff.mp found with added | ⟨_, before⟩
    · obtain ⟨blockId, _, rfl⟩ := Option.map_eq_some_iff.mp added
      rw [new_ref_cnt] at ready
      omega
    · split at before
      · cases before
      · exact inv.counted key block before ready
  · intro handout member
    obtain ⟨block, bound, blockId, ready⟩ := inv.loading handout member
    have count := inv.counted handout.1 block bound ready
    have positive := (load_count_pos_iff run.loads handout.1).mpr ⟨handout, member, rfl⟩
    exact ⟨block, kept handout.1 block bound (by omega), blockId, ready⟩
  · intro handout member
    rcases List.mem_append.mp member with added | before
    · rw [reserved.get_after, reserved_at_mem reserved.length_eq reserved.distinct added]
      rfl
    · exact kept handout.1 _ (inv.storing handout before) (by simp)

theorem complete_store_keeps_run {keys : List OffloadKey} {success : Bool}
    {after : CPUOffloadingManager P} (inv : RunInv run)
    (completed : run.manager.completeStore keys success = .ok after) :
    RunInv { run with
      manager := after
      stores := run.stores.filter fun handout => handout.1 ∉ keys } := by
  obtain ⟨completedAfter, ok, pool, getAfter⟩ := complete_store_ok inv.pool keys success
  rw [completed] at ok
  cases ok
  have readyKept : ∀ key block, run.manager.get key = some block → 0 ≤ block.refCnt →
      after.get key = some block := by
    intro key block bound ready
    have notPending : ¬block.refCnt < 0 := by omega
    rw [getAfter]
    split <;> simp [published, discarded, bound, notPending]
  have untouched : ∀ key ∉ keys, after.get key = run.manager.get key := by
    intro key outside
    rw [getAfter]
    split <;> cases found : run.manager.get key <;> simp [published, discarded, found, outside]
  constructor
  · exact pool
  · intro key block found ready
    cases before : run.manager.get key with
    | none =>
        rw [getAfter] at found
        split at found <;> simp [published, discarded, before] at found
    | some old =>
        by_cases wasReady : 0 ≤ old.refCnt
        · rw [readyKept key old before wasReady] at found
          cases found
          exact inv.counted key block before ready
        · have noLoad : loadCount run.loads key = 0 :=
            no_load_of_not_ready inv (by simpa [before] using wasReady)
          have zero : block.refCnt = 0 := by
            rw [getAfter] at found
            have wasPending : old.refCnt < 0 := by omega
            by_cases listed : key ∈ keys
            · split at found
              · simp only [published, before, Option.map_some, listed, wasPending, and_self,
                  if_true, Option.some.injEq] at found
                rw [← found, with_ref_cnt_ref_cnt]
              · simp [discarded, before, listed, wasPending] at found
            · have same : old = block := by
                split at found <;> simpa [published, discarded, before, listed] using found
              subst same
              omega
          rw [zero, noLoad]
          rfl
  · intro handout member
    obtain ⟨block, bound, blockId, ready⟩ := inv.loading handout member
    exact ⟨block, readyKept handout.1 block bound ready, blockId, ready⟩
  · intro handout member
    obtain ⟨before, outside⟩ := List.mem_filter.mp member
    rw [untouched handout.1 (by simpa using outside)]
    exact inv.storing handout before

theorem prepare_load_keeps_run {keys : List OffloadKey} {blockIds : List Nat}
    {after : CPUOffloadingManager P} (inv : RunInv run)
    (prepared : prepareLoad32 run.manager keys = .ok (blockIds, after))
    (fits : LoadsFit { run with manager := after, loads := keys.zip blockIds :: run.loads }) :
    RunInv { run with manager := after, loads := keys.zip blockIds :: run.loads } := by
  have lengths := prepare_load32_length keys prepared
  have counts : ∀ key, loadCount (keys.zip blockIds :: run.loads) key =
      keys.count key + loadCount run.loads key := by
    intro key
    rw [loadCount, List.flatten_cons, List.map_append, List.count_append,
      List.map_fst_zip (by omega)]
    rfl
  have same : prepareLoad32 run.manager keys = run.manager.prepareLoad keys := by
    apply prepare_load_fits keys inv.pool
    intro key _ block found
    have room : loadCount (keys.zip blockIds :: run.loads) key < 2 ^ 31 := fits key
    rw [counts] at room
    by_cases isReady : 0 ≤ block.refCnt
    · have count := inv.counted key block found isReady
      omega
    · omega
  rw [same] at prepared
  have ready := prepare_load_ready keys inv.pool prepared
  obtain ⟨ids, loaded, ok, pool, ids_eq, getAfter⟩ := prepare_load_ok keys inv.pool ready
  rw [prepared] at ok
  cases ok
  constructor
  · exact pool
  · intro key block found nonneg
    rw [getAfter] at found
    obtain ⟨old, before, rfl⟩ := Option.map_eq_some_iff.mp found
    simp only [with_ref_cnt_ref_cnt, counts, Nat.cast_add] at nonneg ⊢
    by_cases wasReady : 0 ≤ old.refCnt
    · have count := inv.counted key old before wasReady
      omega
    · have notLoaded : key ∉ keys := fun member => by
        obtain ⟨block, bound, isReady⟩ := ready key member
        rw [before] at bound
        cases bound
        omega
      have zero := List.count_eq_zero_of_not_mem notLoaded
      omega
  · intro handout member
    rw [List.flatten_cons, List.mem_append] at member
    rcases member with added | before
    · obtain ⟨index, bound, rfl⟩ := List.mem_iff_getElem.mp added
      have inKeys : index < keys.length := by
        rw [List.length_zip] at bound
        omega
      have inIds : index < blockIds.length := by omega
      have entry : some blockIds[index] =
          (run.manager.get keys[index]).map BlockStatus.blockId := by
        have at_index := congrArg (fun list => list[index]?) ids_eq
        simpa [inKeys, inIds] using at_index
      obtain ⟨block, found, isReady⟩ := ready keys[index] (List.getElem_mem inKeys)
      rw [found, Option.map_some, Option.some.injEq] at entry
      refine ⟨block.withRefCnt (block.refCnt + keys.count keys[index]), ?_, ?_, ?_⟩
      · rw [getAfter, List.getElem_zip, shifted, found]
        rfl
      · rw [List.getElem_zip, with_ref_cnt_block_id, entry]
      · rw [with_ref_cnt_ref_cnt]
        omega
    · obtain ⟨block, found, blockId, isReady⟩ := inv.loading handout before
      refine ⟨block.withRefCnt (block.refCnt + keys.count handout.1), ?_, blockId, ?_⟩
      · rw [getAfter, shifted, found]
        rfl
      · rw [with_ref_cnt_ref_cnt]
        omega
  · intro handout member
    have found := inv.storing handout member
    have notLoaded : handout.1 ∉ keys := fun loadedKey => by
      obtain ⟨block, bound, isReady⟩ := ready handout.1 loadedKey
      rw [found] at bound
      cases bound
      rw [new_ref_cnt] at isReady
      omega
    rw [getAfter, shifted, found, List.count_eq_zero_of_not_mem notLoaded]
    rfl

theorem erase_load_perm {loads : List (List Handout)} {spec : List Handout}
    (outstanding : spec ∈ loads) : loads.flatten.Perm (spec ++ (loads.erase spec).flatten) := by
  have permuted := List.perm_cons_erase outstanding
  simpa using permuted.flatten

theorem complete_load_keeps_run {spec : List Handout} {after : CPUOffloadingManager P}
    (inv : RunInv run) (outstanding : spec ∈ run.loads)
    (completed : run.manager.completeLoad (spec.map Prod.fst) = .ok after) :
    RunInv { run with manager := after, loads := run.loads.erase spec } := by
  have permuted := erase_load_perm outstanding
  have counts : ∀ key, loadCount run.loads key =
      (spec.map Prod.fst).count key + loadCount (run.loads.erase spec) key := by
    intro key
    rw [loadCount, (permuted.map Prod.fst).count_eq, List.map_append, List.count_append]
    rfl
  have held : ∀ key ∈ spec.map Prod.fst, ∃ block, run.manager.get key = some block ∧
      ((spec.map Prod.fst).count key : Int) ≤ block.refCnt := by
    intro key member
    obtain ⟨handout, inSpec, rfl⟩ := List.mem_map.mp member
    have inLoads : handout ∈ run.loads.flatten :=
      permuted.mem_iff.mpr (List.mem_append_left _ inSpec)
    obtain ⟨block, found, _, ready⟩ := inv.loading handout inLoads
    have count := inv.counted handout.1 block found ready
    have total := counts handout.1
    exact ⟨block, found, by omega⟩
  obtain ⟨lowered, ok, pool, getAfter⟩ := complete_load_ok _ inv.pool held
  rw [completed] at ok
  cases ok
  constructor
  · exact pool
  · intro key block found nonneg
    rw [getAfter] at found
    obtain ⟨old, before, rfl⟩ := Option.map_eq_some_iff.mp found
    simp only [with_ref_cnt_ref_cnt] at nonneg ⊢
    have count := inv.counted key old before (by omega)
    have total := counts key
    omega
  · intro handout member
    have inLoads : handout ∈ run.loads.flatten :=
      permuted.mem_iff.mpr (List.mem_append_right _ member)
    obtain ⟨block, found, blockId, ready⟩ := inv.loading handout inLoads
    have count := inv.counted handout.1 block found ready
    have total := counts handout.1
    refine ⟨block.withRefCnt (block.refCnt + -((spec.map Prod.fst).count handout.1 : Int)),
      ?_, blockId, ?_⟩
    · rw [getAfter, shifted, found]
      rfl
    · rw [with_ref_cnt_ref_cnt]
      omega
  · intro handout member
    have found := inv.storing handout member
    have noLoad : loadCount run.loads handout.1 = 0 :=
      no_load_of_not_ready inv (by simp [found])
    have total := counts handout.1
    have zero : (spec.map Prod.fst).count handout.1 = 0 := by omega
    rw [getAfter, shifted, found, zero]
    rfl

theorem step_keeps_run {next : CpuRun P} (inv : RunInv run) (step : FitStep run next) :
    RunInv next := by
  obtain ⟨step, fits⟩ := step
  cases step with
  | lookup looked =>
      obtain ⟨same, _⟩ := lookup_spec looked
      exact same_get_keeps_run inv (same_pool_inv same inv.pool) (same_pool_get same)
  | touch keys =>
      obtain ⟨pool, same⟩ := touch_ok inv.pool keys
      exact same_get_keeps_run inv pool same
  | prepareStore distinct prepared =>
      obtain ⟨output, after, ok, pool, outcome⟩ := prepare_store_ok inv.pool _ _ distinct
      rw [prepared] at ok
      cases ok
      exact reserve_keeps_run inv pool outcome
  | refuseStore distinct refused =>
      obtain ⟨output, after, ok, pool, outcome⟩ := prepare_store_ok inv.pool _ _ distinct
      rw [refused] at ok
      cases ok
      exact same_get_keeps_run inv pool outcome
  | completeStore completed => exact complete_store_keeps_run inv completed
  | prepareLoad ready prepared => exact prepare_load_keeps_run inv prepared fits
  | completeLoad outstanding completed =>
      exact complete_load_keeps_run inv outstanding completed
  | resetCache =>
      obtain ⟨pool, empty⟩ := reset_cache_spec run.manager
      constructor
      · exact pool
      · simp [empty]
      · simp
      · simp

theorem run_keeps_inv {start : CpuRun P} (inv : RunInv start)
    (steps : Relation.ReflTransGen FitStep start run) : RunInv run := by
  induction steps with
  | refl => exact inv
  | tail _ step ih => exact step_keeps_run ih step

end Steps

def storedBlockIds (manager : CPUOffloadingManager P) : List Nat :=
  (CachePolicy.storedKeys manager.policy).filterMap fun key =>
    (manager.get key).map BlockStatus.blockId

def keysWithRefCnt (manager : CPUOffloadingManager P) (refCnt : Int) : Nat :=
  (CachePolicy.storedKeys manager.policy).countP fun key =>
    (manager.get key).any fun block => block.refCnt = refCnt

structure PoolExact (manager : CPUOffloadingManager P) : Prop where
  distinct : (storedBlockIds manager ++ manager.freeList).Nodup
  allocated : ∀ blockId, blockId ∈ storedBlockIds manager ++ manager.freeList ↔
    blockId < manager.numAllocatedBlocks
  bounded : manager.numAllocatedBlocks ≤ manager.numBlocks
  evictable : manager.numEvictableCacheBlocks = keysWithRefCnt manager 0
  pending : manager.numWritePendingBlocks = keysWithRefCnt manager (-1)

/-- Handed out ids stay with their key, off the free list, and the next store
spec takes none of them. -/
structure HandoutsHeld (run : CpuRun P) : Prop where
  bound : ∀ handout ∈ run.handouts, ∃ block,
    run.manager.get handout.1 = some block ∧ block.blockId = handout.2
  not_free : ∀ handout ∈ run.handouts, handout.2 ∉ run.manager.freeList
  not_reused : ∀ keys bypassThreshold output after, keys.Nodup →
    run.manager.prepareStore keys bypassThreshold = .ok (some output, after) →
      output.storeSpec.Nodup ∧ ∀ blockId ∈ output.storeSpec,
        blockId ∉ run.handouts.map Prod.snd

section Soundness

variable [LawfulCachePolicy P]

theorem weigh_eq_stored_sum {A : Type} [AddCommMonoid A] {manager : CPUOffloadingManager P}
    (policyInv : LawfulCachePolicy.Inv manager.policy) (weight : BlockStatus → A) :
    weigh manager weight = ((CachePolicy.storedKeys manager.policy).map fun key =>
      (manager.get key).elim 0 weight).sum := by
  rw [weigh, total, storedSet,
    List.sum_toFinset _ (LawfulCachePolicy.stored_nodup policyInv)]

theorem weigh_slots_eq {manager : CPUOffloadingManager P}
    (policyInv : LawfulCachePolicy.Inv manager.policy) :
    weigh manager slotOf = (storedBlockIds manager : Multiset Nat) := by
  rw [weigh_eq_stored_sum policyInv, storedBlockIds]
  induction CachePolicy.storedKeys manager.policy with
  | nil => rfl
  | cons key rest ih =>
      rw [List.map_cons, List.sum_cons, ih, List.filterMap_cons]
      cases manager.get key with
      | none => simp
      | some block =>
          simp only [Option.elim_some, Option.map_some, slotOf, Multiset.singleton_add]
          rfl

theorem weigh_count_eq {manager : CPUOffloadingManager P}
    (policyInv : LawfulCachePolicy.Inv manager.policy) (refCnt : Int) :
    weigh manager (fun block => if block.refCnt = refCnt then (1 : Int) else 0) =
      keysWithRefCnt manager refCnt := by
  rw [weigh_eq_stored_sum policyInv, keysWithRefCnt]
  induction CachePolicy.storedKeys manager.policy with
  | nil => rfl
  | cons key rest ih =>
      rw [List.map_cons, List.sum_cons, ih, List.countP_cons]
      cases manager.get key with
      | none => simp
      | some block => by_cases same : block.refCnt = refCnt <;> simp [same, add_comm]

theorem pool_exact_of_inv {manager : CPUOffloadingManager P} (inv : PoolInv manager) :
    PoolExact manager := by
  have slots := inv.slots
  rw [weigh_slots_eq inv.policy, Multiset.coe_add] at slots
  constructor
  · rw [← Multiset.coe_nodup, slots]
    exact Multiset.nodup_range _
  · intro blockId
    rw [← Multiset.mem_coe, slots, Multiset.mem_range]
  · exact inv.bounded
  · rw [inv.evictable, ← weigh_count_eq inv.policy]
    rfl
  · rw [inv.pending, ← weigh_count_eq inv.policy]
    rfl

theorem handout_bound {run : CpuRun P} (inv : RunInv run) {handout : Handout}
    (member : handout ∈ run.handouts) : ∃ block,
      run.manager.get handout.1 = some block ∧ block.blockId = handout.2 := by
  rcases List.mem_append.mp member with loading | storing
  · obtain ⟨block, found, blockId, _⟩ := inv.loading handout loading
    exact ⟨block, found, blockId⟩
  · exact ⟨_, inv.storing handout storing, rfl⟩

theorem reserved_ids_nodup {keys : List OffloadKey} {blockIds : List Nat}
    (lengths : blockIds.length = keys.length) (distinct : keys.Nodup)
    (injective : ∀ left ∈ keys.zip blockIds, ∀ right ∈ keys.zip blockIds,
      left.2 = right.2 → left.1 = right.1) : blockIds.Nodup := by
  have zipNodup : (keys.zip blockIds).Nodup := by
    apply List.Nodup.of_map Prod.fst
    rw [List.map_fst_zip (by omega)]
    exact distinct
  have ids : (keys.zip blockIds).map Prod.snd = blockIds := List.map_snd_zip (by omega)
  rw [← ids]
  apply List.Nodup.map_on _ zipNodup
  intro left leftMember right rightMember same
  exact Prod.ext (injective left leftMember right rightMember same) same

theorem handouts_held_of_inv {run : CpuRun P} (inv : RunInv run) : HandoutsHeld run := by
  constructor
  · exact fun handout member => handout_bound inv member
  · intro handout member
    obtain ⟨block, found, blockId⟩ := handout_bound inv member
    exact blockId ▸ stored_slot_not_free inv.pool found
  · intro keys bypassThreshold output after distinct prepared
    obtain ⟨outcome, poolAfter, ok, pool, reserved⟩ :=
      prepare_store_ok inv.pool keys bypassThreshold distinct
    rw [prepared] at ok
    cases ok
    have nextInv := reserve_keeps_run inv pool reserved
    have newBound : ∀ entry ∈ output.keysToStore.zip output.storeSpec,
        after.get entry.1 = some (BlockStatus.new entry.2) := fun entry member =>
      nextInv.storing entry (List.mem_append_left _ member)
    refine ⟨reserved_ids_nodup reserved.length_eq reserved.distinct ?_, ?_⟩
    · intro left leftMember right rightMember same
      exact stored_slot_injective pool (newBound left leftMember) (newBound right rightMember) same
    · intro blockId inSpec taken
      obtain ⟨handout, old, rfl⟩ := List.mem_map.mp taken
      have ids : (output.keysToStore.zip output.storeSpec).map Prod.snd = output.storeSpec :=
        List.map_snd_zip (by rw [reserved.length_eq])
      rw [← ids, List.mem_map] at inSpec
      obtain ⟨entry, entryMember, sameId⟩ := inSpec
      have oldAfter : handout ∈ CpuRun.handouts { run with
          manager := after
          stores := output.keysToStore.zip output.storeSpec ++ run.stores } := by
        rcases List.mem_append.mp old with loading | storing
        · exact List.mem_append_left _ loading
        · exact List.mem_append_right _ (List.mem_append_right _ storing)
      obtain ⟨block, found, blockId⟩ := handout_bound nextInv oldAfter
      have sameKey : entry.1 = handout.1 :=
        stored_slot_injective pool (newBound entry entryMember) found
          (by rw [new_block_id, sameId, blockId])
      obtain ⟨before, bound, _⟩ := handout_bound inv old
      have fresh := reserved.fresh entry.1 (List.of_mem_zip entryMember).1
      rw [sameKey, bound] at fresh
      cases fresh

theorem start_inv (params : CpuManagerParams) {policy : P}
    (policyInv : LawfulCachePolicy.Inv policy)
    (empty : ∀ key, CachePolicy.get policy key = none) : RunInv (CpuRun.start params policy) := by
  obtain ⟨pool, getNew⟩ := new_spec params policy policyInv empty
  constructor
  · exact pool
  · simp [CpuRun.start, getNew]
  · simp [CpuRun.start]
  · simp [CpuRun.start]

end Soundness

/-- Every run from a new manager whose counts fit keeps the pool exact and the handouts held. -/
def RunsSound (policy : P) : Prop :=
  ∀ params run, Relation.ReflTransGen FitStep (CpuRun.start params policy) run →
    PoolExact run.manager ∧ HandoutsHeld run

theorem runs_sound_of_lawful [LawfulCachePolicy P] {policy : P}
    (policyInv : LawfulCachePolicy.Inv policy)
    (empty : ∀ key, CachePolicy.get policy key = none) : RunsSound policy := by
  intro params run steps
  have inv := run_keeps_inv (start_inv params policyInv empty) steps
  exact ⟨pool_exact_of_inv inv.pool, handouts_held_of_inv inv⟩

theorem lru_and_arc_runs_sound (cacheCapacity : Nat)
    (rounding : FloatRounding.Rounding) :
    RunsSound (LruPolicy.LRUCachePolicy.new cacheCapacity) ∧
      RunsSound (ArcPolicy.ARCCachePolicy.new cacheCapacity rounding) := by
  constructor
  · apply runs_sound_of_lawful
    · intro key
      simp [LruPolicy.LRUCachePolicy.new]
    · exact fun _ => rfl
  · apply runs_sound_of_lawful
    · exact fun _ => Or.inl rfl
    · exact fun _ => rfl

section Example

theorem loads_fit_of_few {P : Type} {run : CpuRun P} (few : run.loads.flatten.length < 2 ^ 31) :
    LoadsFit run := by
  intro key
  refine lt_of_le_of_lt List.count_le_length ?_
  rwa [List.length_map]

/-- Two keys are stored, one is loaded, the other is evicted for a store that fails. -/
theorem runs_sound_after_failed_store :
    ∃ run : CpuRun LruPolicy.LRUCachePolicy,
      run.loads = [[(⟨[8], 0⟩, 1)]] ∧ run.stores = [] ∧ run.manager.freeList = [0] ∧
        run.manager.get ⟨[7], 0⟩ = none ∧ PoolExact run.manager ∧ HandoutsHeld run :=
  ⟨_, rfl, rfl, rfl, rfl, (lru_and_arc_runs_sound 2 .exact).1 { numBlocks := 2 } _
    (.tail (.tail (.tail (.tail (.single
      ⟨@CpuStep.prepareStore _ _ _ [⟨[7], 0⟩, ⟨[8], 0⟩] false _ _ (by decide) rfl,
        loads_fit_of_few (by decide)⟩)
      ⟨@CpuStep.completeStore _ _ _ [⟨[7], 0⟩, ⟨[8], 0⟩] true _ rfl, loads_fit_of_few (by decide)⟩)
      ⟨@CpuStep.prepareLoad _ _ _ [⟨[8], 0⟩] _ _ (by decide) rfl, loads_fit_of_few (by decide)⟩)
      ⟨@CpuStep.prepareStore _ _ _ [⟨[9], 0⟩] false _ _ (by decide) rfl,
        loads_fit_of_few (by decide)⟩)
      ⟨@CpuStep.completeStore _ _ _ [⟨[9], 0⟩] false _ rfl, loads_fit_of_few (by decide)⟩)⟩

/-- The key of the only block is loaded `count` times. -/
theorem loads_reached (count : Nat) (small : count < 2 ^ 31) :
    ∃ run : CpuRun LruPolicy.LRUCachePolicy,
      Relation.ReflTransGen FitStep
        (CpuRun.start { numBlocks := 1 } (LruPolicy.LRUCachePolicy.new 1)) run ∧
      run.loads = List.replicate count [(⟨[7], 0⟩, 0)] ∧
      run.manager.get ⟨[7], 0⟩ = some ⟨count, 0⟩ := by
  induction count with
  | zero =>
      exact ⟨_, .tail (.single ⟨@CpuStep.prepareStore _ _ _ [⟨[7], 0⟩] false _ _ (by decide) rfl,
        loads_fit_of_few (by decide)⟩) ⟨@CpuStep.completeStore _ _ _ [⟨[7], 0⟩] true _ rfl,
        loads_fit_of_few (by decide)⟩, rfl, rfl⟩
  | succ count ih =>
      obtain ⟨run, steps, loads, stored⟩ := ih (by omega)
      have inv := run_keeps_inv (start_inv { numBlocks := 1 } (by
        intro key
        simp [LruPolicy.LRUCachePolicy.new]) fun _ => rfl) steps
      obtain ⟨blockIds, after, ok, _, ids, getAfter⟩ := prepare_load_ok [⟨[7], 0⟩] inv.pool
        fun key member => by
          rw [List.mem_singleton.mp member]
          exact ⟨_, stored, Int.natCast_nonneg count⟩
      have isZero : blockIds = [0] := by
        rw [List.map_singleton, stored] at ids
        apply List.map_injective_iff.mpr (Option.some_injective Nat)
        exact ids
      subst isZero
      have narrow : prepareLoad32 run.manager [⟨[7], 0⟩] = .ok ([0], after) := by
        rw [prepare_load_fits [⟨[7], 0⟩] inv.pool, ok]
        intro key member block found
        rw [List.mem_singleton.mp member, stored] at found
        cases found
        rw [List.mem_singleton.mp member]
        show (count : Int) + 1 < 2 ^ 31
        omega
      have hit : ∀ key ∈ [(⟨[7], 0⟩ : OffloadKey)], run.manager.lookupResult key = .hit := by
        intro key member
        rw [List.mem_singleton.mp member]
        exact (lookup_result_hit_iff _ _).mpr ⟨_, stored, Int.natCast_nonneg count⟩
      refine ⟨_, steps.tail ⟨@CpuStep.prepareLoad _ _ run _ _ _ hit narrow, ?_⟩, ?_, ?_⟩
      · apply loads_fit_of_few
        show (([(⟨[7], 0⟩, 0)] : List Handout) :: run.loads).flatten.length < 2 ^ 31
        rw [loads, ← List.replicate_succ]
        simpa using small
      · show [(⟨[7], 0⟩, 0)] :: run.loads = _
        rw [loads, List.replicate_succ]
      · show after.get ⟨[7], 0⟩ = _
        rw [getAfter, shifted, stored]
        simp [BlockStatus.withRefCnt]

/-- The next load wraps the count to a negative one, and a failed store of the key frees the
block that is still being read. -/
theorem wrapped_count_frees_block :
    ∃ run : CpuRun LruPolicy.LRUCachePolicy,
      Relation.ReflTransGen CpuStep
        (CpuRun.start { numBlocks := 1 } (LruPolicy.LRUCachePolicy.new 1)) run ∧
      (⟨[7], 0⟩, 0) ∈ run.handouts ∧ 0 ∈ run.manager.freeList ∧ ¬HandoutsHeld run := by
  obtain ⟨run, steps, loads, stored⟩ := loads_reached (2 ^ 31 - 1) (by omega)
  let wrapped : CPUOffloadingManager LruPolicy.LRUCachePolicy := { run.manager with
    policy := CachePolicy.setRefCnt run.manager.policy ⟨[7], 0⟩ (-2 ^ 31) }
  have wraps : cInt32 (((2 ^ 31 - 1 : Nat) : Int) + 1) = -2 ^ 31 := by decide
  have pinned : prepareLoad32 run.manager [⟨[7], 0⟩] = .ok ([0], wrapped) := by
    have busy : ¬((2 ^ 31 - 1 : Nat) : Int) = 0 := by decide
    have ready : (⟨((2 ^ 31 - 1 : Nat) : Int), 0⟩ : BlockStatus).isReady = true := by decide
    simp only [prepareLoad32, pinBlock32, stored, py_assert_of ready, ok_bind, if_neg busy, wraps]
    rfl
  have hit : ∀ key ∈ [(⟨[7], 0⟩ : OffloadKey)], run.manager.lookupResult key = .hit := by
    intro key member
    rw [List.mem_singleton.mp member]
    exact (lookup_result_hit_iff _ _).mpr ⟨_, stored, Int.natCast_nonneg _⟩
  have held : wrapped.get ⟨[7], 0⟩ = some ⟨-2 ^ 31, 0⟩ := by
    refine (LruPolicy.get_set_ref_cnt stored _ _).trans ?_
    rw [if_pos rfl]
    rfl
  let erased : LruPolicy.LRUCachePolicy := { wrapped.policy with
    blocks := wrapped.policy.blocks.erase ⟨[7], 0⟩
    evictableBlocks := wrapped.policy.evictableBlocks.erase ⟨[7], 0⟩ }
  let freed : CPUOffloadingManager LruPolicy.LRUCachePolicy :=
    { wrapped with
      numWritePendingBlocks := wrapped.numWritePendingBlocks - 1
      policy := erased }.freeBlock ⟨-2 ^ 31, 0⟩
  have discarded : wrapped.completeStore [⟨[7], 0⟩] false = .ok freed := by
    have pending : ¬(⟨-2 ^ 31, 0⟩ : BlockStatus).isReady = true := by decide
    have removed : CachePolicy.remove wrapped.policy ⟨[7], 0⟩ = .ok erased := by
      have found : wrapped.policy.blocks.get? ⟨[7], 0⟩ = some ⟨-2 ^ 31, 0⟩ := held
      show LruPolicy.LRUCachePolicy.remove wrapped.policy ⟨[7], 0⟩ = _
      rw [LruPolicy.LRUCachePolicy.remove, found]
      rfl
    simp only [CPUOffloadingManager.completeStore, CPUOffloadingManager.discardBlocks,
      CPUOffloadingManager.discardBlock, held, if_neg pending, removed, ok_bind,
      Bool.false_eq_true, if_false]
    rfl
  have gone : freed.get ⟨[7], 0⟩ = none := OrderedMap.get_erase_self _ _
  have reaches : Relation.ReflTransGen CpuStep
      (CpuRun.start { numBlocks := 1 } (LruPolicy.LRUCachePolicy.new 1)) run :=
    steps.lift id fun _ _ step => step.1
  have loading : ((⟨[7], 0⟩, 0) : Handout) ∈ ([(⟨[7], 0⟩, 0)] :: run.loads).flatten := by
    simp
  refine ⟨_, (reaches.tail (@CpuStep.prepareLoad _ _ run _ _ _ hit pinned)).tail
    (.completeStore discarded), List.mem_append_left _ loading, List.mem_cons_self, fun heldAll => ?_⟩
  obtain ⟨block, bound, _⟩ := heldAll.bound _ (List.mem_append_left _ loading)
  cases gone.symm.trans bound

end Example

end KvOffload.CpuManagerRuns
