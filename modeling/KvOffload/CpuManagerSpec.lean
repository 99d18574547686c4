import KvOffload.CpuPool

/-!
# CPU manager operations

One specification lemma for each operation of the CPU manager: from a state
with the pool invariant it does not raise under the stated precondition, keeps
the invariant, and changes the map from keys to blocks as stated.
-/

namespace KvOffload.CpuManagerSpec

open KvOffload KvOffload.Base KvOffload.PolicyInterface KvOffload.FiniteTotals
open KvOffload.CpuManager KvOffload.CpuPool

set_option autoImplicit false

variable {P : Type}

theorem count_lookup_same {manager after : CPUOffloadingManager P} {key : OffloadKey}
    (counted : manager.countLookup key = .ok after) : SamePool manager after := by
  unfold CPUOffloadingManager.countLookup at counted
  split at counted
  · cases counted
    exact same_pool_refl manager
  · split at counted
    · cases counted
      exact ⟨rfl, rfl, rfl, rfl, rfl, rfl⟩
    · obtain ⟨room, _, counted⟩ := bind_eq_ok.mp counted
      cases counted
      exact ⟨rfl, rfl, rfl, rfl, rfl, rfl⟩

theorem gate_keys_spec (manager : CPUOffloadingManager P) (keys : List OffloadKey)
    (bypassThreshold : Bool) :
    SamePool manager (manager.gateKeys keys bypassThreshold).2 ∧
      (manager.gateKeys keys bypassThreshold).1.Sublist keys := by
  unfold CPUOffloadingManager.gateKeys
  split
  · exact ⟨same_pool_refl manager, List.Sublist.refl keys⟩
  · split
    · exact ⟨same_pool_refl manager, List.Sublist.refl keys⟩
    · exact ⟨⟨rfl, rfl, rfl, rfl, rfl, rfl⟩, List.filter_sublist⟩

theorem cap_eviction_same (manager : CPUOffloadingManager P) (requested : Int) :
    SamePool manager (manager.capEviction requested).2 := by
  unfold CPUOffloadingManager.capEviction
  split
  · exact ⟨rfl, rfl, rfl, rfl, rfl, rfl⟩
  · exact same_pool_refl manager

theorem emit_same (manager : CPUOffloadingManager P) (keys : List OffloadKey) (removed : Bool) :
    SamePool manager (manager.emit keys removed) := by
  unfold CPUOffloadingManager.emit
  split
  · exact same_pool_refl manager
  · exact ⟨rfl, rfl, rfl, rfl, rfl, rfl⟩

theorem record_tombstones_same (manager : CPUOffloadingManager P)
    (blockHashes : List BlockHash) :
    SamePool manager (manager.recordEvictionTombstones blockHashes) := by
  unfold CPUOffloadingManager.recordEvictionTombstones
  split
  · exact same_pool_refl manager
  · exact ⟨rfl, rfl, rfl, rfl, rfl, rfl⟩

theorem clear_tombstones_same (manager : CPUOffloadingManager P) (stored : List OffloadKey) :
    SamePool manager (manager.clearTombstones stored) := by
  unfold CPUOffloadingManager.clearTombstones
  split
  · exact same_pool_refl manager
  · exact ⟨rfl, rfl, rfl, rfl, rfl, rfl⟩

theorem note_evicted_same (manager : CPUOffloadingManager P) (toEvict : List OffloadKey) :
    SamePool manager (manager.noteEvicted toEvict) := by
  unfold CPUOffloadingManager.noteEvicted
  split
  · exact same_pool_refl manager
  · have counted : SamePool manager { manager with
        evictedTotal := manager.evictedTotal + toEvict.length } :=
      ⟨rfl, rfl, rfl, rfl, rfl, rfl⟩
    exact same_pool_trans (same_pool_trans counted (record_tombstones_same _ _))
      (emit_same _ toEvict true)

theorem reset_events_same (manager : CPUOffloadingManager P) (removed : List OffloadKey) :
    SamePool manager (manager.resetEvents removed) := by
  unfold CPUOffloadingManager.resetEvents
  induction removed.toChunks 65536 generalizing manager with
  | nil => exact same_pool_refl manager
  | cons chunk rest ih => exact same_pool_trans (emit_same manager chunk true) (ih _)

theorem free_victims_spec (victims : Victims) (manager : CPUOffloadingManager P) :
    manager.freeVictims victims = { manager with
      freeList := (victims.map fun victim => victim.2.blockId).reverse ++ manager.freeList } := by
  unfold CPUOffloadingManager.freeVictims
  induction victims generalizing manager with
  | nil => rfl
  | cons victim rest ih =>
      rw [List.foldl_cons, ih]
      simp [CPUOffloadingManager.freeBlock]

variable [CachePolicy P]

theorem lookup_spec {manager after : CPUOffloadingManager P} {key : OffloadKey}
    {result : LookupResult} (looked : manager.lookup key = .ok (result, after)) :
    SamePool manager after ∧ result = manager.lookupResult key := by
  obtain ⟨counted, countOk, rest⟩ := bind_eq_ok.mp looked
  have same := count_lookup_same countOk
  cases rest
  refine ⟨same, ?_⟩
  simp only [CPUOffloadingManager.lookupResult, same_pool_get same]

theorem lookup_result_hit_iff (manager : CPUOffloadingManager P) (key : OffloadKey) :
    manager.lookupResult key = .hit ↔
      ∃ block, manager.get key = some block ∧ 0 ≤ block.refCnt := by
  unfold CPUOffloadingManager.lookupResult
  cases found : manager.get key with
  | none => simp
  | some block => by_cases ready : 0 ≤ block.refCnt <;> simp [BlockStatus.isReady, ready]

section Operations

variable [LawfulCachePolicy P] {manager : CPUOffloadingManager P}

/-- A bound idle block is counted as evictable. -/
theorem evictable_pos (inv : PoolInv manager) {key : OffloadKey} {block : BlockStatus}
    (bound : manager.get key = some block) (idle : block.refCnt = 0) :
    1 ≤ manager.numEvictableCacheBlocks := by
  rw [inv.evictable]
  have member : key ∈ storedSet manager :=
    stored_set_covers inv.policy key (by rw [bound]; exact Option.some_ne_none block)
  have nonneg : ∀ other ∈ storedSet manager, 0 ≤ (manager.get other).elim 0 idleOne := by
    intro other _
    cases manager.get other with
    | none => exact le_rfl
    | some status =>
        simp only [Option.elim_some, idleOne]
        split <;> omega
  have single := Finset.single_le_sum nonneg member
  rw [bound, Option.elim_some, idleOne, if_pos idle] at single
  exact single

theorem pin_block_ok (inv : PoolInv manager) {key : OffloadKey} {block : BlockStatus}
    (bound : manager.get key = some block) (ready : 0 ≤ block.refCnt) :
    ∃ after, manager.pinBlock key = .ok (block.blockId, after) ∧ PoolInv after ∧
      ∀ other, after.get other =
        if other = key then some (block.withRefCnt (block.refCnt + 1)) else manager.get other := by
  unfold CPUOffloadingManager.pinBlock
  have isReady : block.isReady = true := by simpa [BlockStatus.isReady] using ready
  simp only [bound, py_assert_of isReady, ok_bind]
  by_cases idle : block.refCnt = 0
  · obtain ⟨held, marked, heldInv, heldGet⟩ :=
      LawfulCachePolicy.pin_ok inv.policy bound idle
    have counted := evictable_pos inv bound idle
    simp only [idle, if_true, marked, ok_bind,
      py_assert_of (show (0 : Int) ≤ manager.numEvictableCacheBlocks - 1 by omega), zero_add]
    refine ⟨_, rfl, ?_, heldGet⟩
    exact pool_inv_recount inv bound heldInv heldGet (by omega) rfl rfl rfl
      (by simp [idleOne, idle]) (by simp [pendingOne, idle])
  · simp only [idle, if_false]
    have recounted : ∀ other, CachePolicy.get
        (CachePolicy.setRefCnt manager.policy key (block.refCnt + 1)) other =
          if other = key then some (block.withRefCnt (block.refCnt + 1)) else manager.get other :=
      LawfulCachePolicy.get_recount inv.policy bound
    refine ⟨_, rfl, ?_, recounted⟩
    refine pool_inv_recount inv bound
      (LawfulCachePolicy.inv_recount inv.policy bound idle (by omega)) recounted (by omega)
      rfl rfl rfl ?_ ?_
    · have busy : block.refCnt + 1 ≠ 0 := by omega
      simp [idleOne, idle, busy]
    · have started : block.refCnt ≠ -1 := by omega
      have stillStarted : block.refCnt + 1 ≠ -1 := by omega
      simp [pendingOne, started, stillStarted]

omit [LawfulCachePolicy P] in
theorem pin_block_error {key : OffloadKey}
    (notReady : ¬∃ block, manager.get key = some block ∧ 0 ≤ block.refCnt) :
    manager.pinBlock key = .error .assertionError := by
  unfold CPUOffloadingManager.pinBlock
  cases found : manager.get key with
  | none => rfl
  | some block =>
      have pending : ¬(block.isReady = true) := by
        intro isReady
        exact notReady ⟨block, found, by simpa [BlockStatus.isReady] using isReady⟩
      simp only [pyAssert, if_neg pending]
      rfl

theorem unpin_block_ok (inv : PoolInv manager) {key : OffloadKey} {block : BlockStatus}
    (bound : manager.get key = some block) (held : 0 < block.refCnt) :
    ∃ after, manager.unpinBlock key = .ok after ∧ PoolInv after ∧
      ∀ other, after.get other =
        if other = key then some (block.withRefCnt (block.refCnt - 1)) else manager.get other := by
  unfold CPUOffloadingManager.unpinBlock
  simp only [bound, py_assert_of held, ok_bind]
  by_cases last : block.refCnt - 1 = 0
  · simp only [last, if_true]
    have released := LawfulCachePolicy.get_release inv.policy bound
    refine ⟨_, rfl, ?_, released⟩
    refine pool_inv_recount inv bound
      (LawfulCachePolicy.inv_release inv.policy bound (by omega)) released (by omega)
      rfl rfl rfl ?_ ?_
    · have busy : block.refCnt ≠ 0 := by omega
      simp [idleOne, busy]
    · have started : block.refCnt ≠ -1 := by omega
      simp [pendingOne, started]
  · simp only [last, if_false]
    have recounted : ∀ other, CachePolicy.get
        (CachePolicy.setRefCnt manager.policy key (block.refCnt - 1)) other =
          if other = key then some (block.withRefCnt (block.refCnt - 1)) else manager.get other :=
      LawfulCachePolicy.get_recount inv.policy bound
    refine ⟨_, rfl, ?_, recounted⟩
    refine pool_inv_recount inv bound
      (LawfulCachePolicy.inv_recount inv.policy bound (by omega) last) recounted (by omega)
      rfl rfl rfl ?_ ?_
    · have busy : block.refCnt ≠ 0 := by omega
      simp [idleOne, busy, last]
    · have started : block.refCnt ≠ -1 := by omega
      have stillStarted : block.refCnt - 1 ≠ -1 := by omega
      simp [pendingOne, started, stillStarted]

/-- The map after `count key` more references were taken on every key. -/
def shifted (current : OffloadKey → Option BlockStatus) (count : OffloadKey → Int)
    (key : OffloadKey) : Option BlockStatus :=
  (current key).map fun block => block.withRefCnt (block.refCnt + count key)

theorem shifted_step {current next : OffloadKey → Option BlockStatus} {key : OffloadKey}
    {block : BlockStatus} {delta : Int} (bound : current key = some block)
    (update : ∀ other, next other =
      if other = key then some (block.withRefCnt (block.refCnt + delta)) else current other)
    (count : OffloadKey → Int) :
    shifted next count =
      shifted current fun other => if other = key then delta + count other else count other := by
  funext other
  simp only [shifted, update]
  by_cases same : other = key
  · subst same
    simp [bound, BlockStatus.withRefCnt, add_assoc]
  · simp [same]

theorem shifted_zero (current : OffloadKey → Option BlockStatus) :
    shifted current (fun _ => 0) = current := by
  funext key
  cases found : current key <;> simp [shifted, found, BlockStatus.withRefCnt]

theorem count_cons_shift (key other : OffloadKey) (rest : List OffloadKey) :
    ((key :: rest).count other : Int) =
      if other = key then 1 + (rest.count other : Int) else rest.count other := by
  by_cases same : other = key
  · subst same
    rw [List.count_cons_self, if_pos rfl]
    omega
  · have different : key ≠ other := fun equal => same equal.symm
    rw [List.count_cons_of_ne different, if_neg same]

theorem prepare_load_ok (keys : List OffloadKey) (inv : PoolInv manager)
    (ready : ∀ key ∈ keys, ∃ block, manager.get key = some block ∧ 0 ≤ block.refCnt) :
    ∃ blockIds after, manager.prepareLoad keys = .ok (blockIds, after) ∧ PoolInv after ∧
      blockIds.map some = keys.map (fun key => (manager.get key).map BlockStatus.blockId) ∧
      after.get = shifted manager.get fun key => keys.count key := by
  induction keys generalizing manager with
  | nil => exact ⟨[], manager, rfl, inv, rfl, (shifted_zero manager.get).symm⟩
  | cons key rest ih =>
      obtain ⟨block, bound, nonneg⟩ := ready key List.mem_cons_self
      obtain ⟨pinned, pinOk, pinInv, pinGet⟩ := pin_block_ok inv bound nonneg
      have stillReady : ∀ other ∈ rest, ∃ status, pinned.get other = some status ∧
          0 ≤ status.refCnt := by
        intro other member
        rw [pinGet]
        split
        · exact ⟨_, rfl, by rw [with_ref_cnt_ref_cnt]; omega⟩
        · exact ready other (List.mem_cons_of_mem _ member)
      obtain ⟨blockIds, after, loadOk, afterInv, ids, afterGet⟩ := ih pinInv stillReady
      refine ⟨block.blockId :: blockIds, after, ?_, afterInv, ?_, ?_⟩
      · simp only [CPUOffloadingManager.prepareLoad, pinOk, loadOk, ok_bind]
      · rw [List.map_cons, List.map_cons, ids, bound, Option.map_some, List.cons.injEq]
        refine ⟨rfl, List.map_congr_left fun other _ => ?_⟩
        rw [pinGet]
        split
        · rename_i same
          rw [same, bound]
          rfl
        · rfl
      · rw [afterGet, shifted_step bound pinGet]
        simp only [count_cons_shift]

theorem prepare_load_ready (keys : List OffloadKey) (inv : PoolInv manager)
    {result : List Nat × CPUOffloadingManager P}
    (loaded : manager.prepareLoad keys = .ok result) :
    ∀ key ∈ keys, ∃ block, manager.get key = some block ∧ 0 ≤ block.refCnt := by
  induction keys generalizing manager result with
  | nil => simp
  | cons key rest ih =>
      simp only [CPUOffloadingManager.prepareLoad] at loaded
      obtain ⟨⟨blockId, pinned⟩, pinOk, loaded⟩ := bind_eq_ok.mp loaded
      obtain ⟨later, loadOk, _⟩ := bind_eq_ok.mp loaded
      have keyReady : ∃ block, manager.get key = some block ∧ 0 ≤ block.refCnt := by
        by_contra notReady
        rw [pin_block_error notReady] at pinOk
        cases pinOk
      obtain ⟨block, bound, nonneg⟩ := keyReady
      obtain ⟨after, pinOk', pinInv, pinGet⟩ := pin_block_ok inv bound nonneg
      rw [pinOk] at pinOk'
      cases pinOk'
      intro other member
      by_cases same : other = key
      · exact ⟨block, same ▸ bound, nonneg⟩
      · have later := ih pinInv loadOk other ((List.mem_cons.mp member).resolve_left same)
        rwa [pinGet, if_neg same] at later

theorem complete_load_ok (keys : List OffloadKey) (inv : PoolInv manager)
    (held : ∀ key ∈ keys, ∃ block, manager.get key = some block ∧
      (keys.count key : Int) ≤ block.refCnt) :
    ∃ after, manager.completeLoad keys = .ok after ∧ PoolInv after ∧
      after.get = shifted manager.get fun key => -keys.count key := by
  induction keys generalizing manager with
  | nil => exact ⟨manager, rfl, inv, by simpa using (shifted_zero manager.get).symm⟩
  | cons key rest ih =>
      obtain ⟨block, bound, enough⟩ := held key List.mem_cons_self
      rw [List.count_cons_self] at enough
      obtain ⟨lowered, unpinOk, lowerInv, lowerGet⟩ := unpin_block_ok inv bound (by omega)
      have stillHeld : ∀ other ∈ rest, ∃ status, lowered.get other = some status ∧
          (rest.count other : Int) ≤ status.refCnt := by
        intro other member
        rw [lowerGet]
        by_cases same : other = key
        · subst same
          exact ⟨_, if_pos rfl, by rw [with_ref_cnt_ref_cnt]; omega⟩
        · rw [if_neg same]
          have before := held other (List.mem_cons_of_mem _ member)
          rwa [List.count_cons_of_ne (Ne.symm same)] at before
      obtain ⟨after, completeOk, afterInv, afterGet⟩ := ih lowerInv stillHeld
      refine ⟨after, ?_, afterInv, ?_⟩
      · simp only [CPUOffloadingManager.completeLoad, unpinOk, completeOk, ok_bind]
      · have lowerShift : ∀ other, lowered.get other =
            if other = key then some (block.withRefCnt (block.refCnt + -1))
            else manager.get other := lowerGet
        rw [afterGet, shifted_step bound lowerShift]
        congr 1
        funext other
        rw [count_cons_shift]
        split <;> omega

theorem cap_eviction_nonneg {Q : Type} (manager : CPUOffloadingManager Q) {requested : Int}
    (positive : 0 < requested) : 0 ≤ (manager.capEviction requested).1 := by
  unfold CPUOffloadingManager.capEviction
  split
  · exact Int.natCast_nonneg _
  · exact positive.le

/-- `None` leaves the pool alone; otherwise idle keys outside the request made room. -/
def RoomOutcome (manager : CPUOffloadingManager P) (keys : List OffloadKey) (numToStore : Nat) :
    Option (List OffloadKey) → CPUOffloadingManager P → Prop
  | none, after => SamePool manager after
  | some toEvict, after =>
      (∀ key ∈ toEvict, key ∉ keys ∧
        ∃ block, manager.get key = some block ∧ block.refCnt = 0) ∧
      (∀ key, after.get key = if key ∈ toEvict then none else manager.get key) ∧
      (numToStore : Int) ≤ after.getNumFreeBlocks

theorem take_victims_ok (inv : PoolInv manager) {count : Nat} {guarded : List OffloadKey} {victims : Victims} {policy : P}
    (policyInv : LawfulCachePolicy.Inv policy)
    (outcome : EvictOutcome manager.policy count guarded victims policy) :
    PoolInv (manager.takeVictims policy victims) ∧
      (∀ key, (manager.takeVictims policy victims).get key =
        if key ∈ victims.map Prod.fst then none else manager.get key) ∧
      (manager.takeVictims policy victims).getNumFreeBlocks =
        manager.getNumFreeBlocks + count := by
  rw [CPUOffloadingManager.takeVictims, free_victims_spec]
  have idleSum : (victims.map fun victim => idleOne victim.2).sum = victims.length := by
    rw [List.map_congr_left (g := fun _ => (1 : Int))]
    · simp
    · intro victim member
      simp [idleOne, (outcome.idle victim member).2]
  have pendingSum : (victims.map fun victim => pendingOne victim.2).sum = 0 := by
    rw [List.map_congr_left (g := fun _ => (0 : Int))]
    · simp
    · intro victim member
      simp [pendingOne, (outcome.idle victim member).2]
  refine ⟨?_, outcome.get_after, ?_⟩
  · refine pool_inv_remove inv victims outcome.distinct
      (fun victim member => (outcome.idle victim member).1) policyInv outcome.get_after
      rfl rfl rfl ?_ ?_
    · rw [idleSum]
      exact sub_add_cancel _ _
    · rw [pendingSum, add_zero]
  · simp only [CPUOffloadingManager.getNumFreeBlocks, List.length_append, List.length_reverse,
      List.length_map, outcome.count_eq]
    push_cast
    omega

theorem make_room_ok (inv : PoolInv manager) (keys : List OffloadKey) (numToStore : Nat) :
    ∃ evicted after, manager.makeRoom keys numToStore = .ok (evicted, after) ∧
      PoolInv after ∧ RoomOutcome manager keys numToStore evicted after := by
  unfold CPUOffloadingManager.makeRoom
  simp only
  split
  · rename_i short
    have cappedSame := cap_eviction_same manager (numToStore - manager.getNumFreeBlocks)
    have cappedNonneg := cap_eviction_nonneg manager short
    generalize manager.capEviction (numToStore - manager.getNumFreeBlocks) = capped
      at cappedSame cappedNonneg
    obtain ⟨toEvict, counted⟩ := capped
    simp only at cappedSame cappedNonneg ⊢
    have countedInv := same_pool_inv cappedSame inv
    split
    · exact ⟨none, counted, rfl, countedInv, cappedSame⟩
    · rename_i possible
      rw [not_or, not_lt, not_lt] at possible
      rcases LawfulCachePolicy.evict_ok countedInv.policy toEvict.toNat keys with
        failed | ⟨victims, policy, evicted, policyInv, outcome⟩
      · exact ⟨none, counted, by simp only [failed, ok_bind], countedInv, cappedSame⟩
      · have length := outcome.count_eq
        have enough : (0 : Int) ≤ counted.numEvictableCacheBlocks - victims.length := by omega
        obtain ⟨afterInv, afterGet, afterFree⟩ :=
          take_victims_ok countedInv policyInv outcome
        refine ⟨some (victims.map Prod.fst), counted.takeVictims policy victims,
          by simp only [evicted, ok_bind, py_assert_of enough], afterInv, ?_, ?_, ?_⟩
        · intro key member
          obtain ⟨victim, victimMember, rfl⟩ := List.mem_map.mp member
          refine ⟨outcome.unguarded victim victimMember, victim.2, ?_⟩
          rw [← same_pool_get cappedSame]
          exact outcome.idle victim victimMember
        · rw [← same_pool_get cappedSame]
          exact afterGet
        · have sameFree : counted.getNumFreeBlocks = manager.getNumFreeBlocks := by
            simp only [CPUOffloadingManager.getNumFreeBlocks, cappedSame.freeList,
              cappedSame.numBlocks, cappedSame.allocated]
          rw [afterFree, sameFree]
          omega
  · rename_i room
    refine ⟨some [], manager, rfl, inv, by simp, by simp, ?_⟩
    omega

/-- New blocks come from the fresh slots first and leave the free list. -/
theorem allocate_blocks_ok (inv : PoolInv manager) (count : Nat)
    (room : (count : Int) ≤ manager.getNumFreeBlocks) :
    ∃ (blockIds freeList : List Nat) (allocated : Nat),
      manager.allocateBlocks count =
        .ok (blockIds.map BlockStatus.new, manager.withSlots allocated freeList) ∧
      blockIds.length = count ∧ allocated ≤ manager.numBlocks ∧
      (blockIds : Multiset Nat) + (freeList : Multiset Nat) +
        Multiset.range manager.numAllocatedBlocks =
          (manager.freeList : Multiset Nat) + Multiset.range allocated := by
  have bounded := inv.bounded
  unfold CPUOffloadingManager.getNumFreeBlocks at room
  unfold CPUOffloadingManager.allocateBlocks
  generalize fresh_eq : min count (manager.numBlocks - manager.numAllocatedBlocks) = fresh
  have reused : count - fresh ≤ manager.freeList.length := by omega
  refine ⟨List.range' manager.numAllocatedBlocks fresh ++ manager.freeList.take (count - fresh),
    manager.freeList.drop (count - fresh), manager.numAllocatedBlocks + fresh,
    by simp only [py_assert_of reused, ok_bind], ?_, by omega, ?_⟩
  · simp only [List.length_append, List.length_range', List.length_take]
    omega
  · have grown : Multiset.range (manager.numAllocatedBlocks + fresh) =
        Multiset.range manager.numAllocatedBlocks +
          (List.range' manager.numAllocatedBlocks fresh : Multiset Nat) := by
      simp only [Multiset.range, List.range_add, List.range'_eq_map_range, Multiset.coe_add]
    have split : (manager.freeList : Multiset Nat) =
        (manager.freeList.take (count - fresh) : Multiset Nat) +
          (manager.freeList.drop (count - fresh) : Multiset Nat) := by
      rw [Multiset.coe_add, List.take_append_drop]
    rw [grown, split, ← Multiset.coe_add]
    abel

theorem reserve_blocks_ok (inv : PoolInv manager) (keysToStore toEvict : List OffloadKey)
    (room : (keysToStore.length : Int) ≤ manager.getNumFreeBlocks) (distinct : keysToStore.Nodup)
    (fresh : ∀ key ∈ keysToStore, manager.get key = none) :
    ∃ (blockIds : List Nat) (after : CPUOffloadingManager P),
      manager.reserveBlocks keysToStore toEvict = .ok (⟨keysToStore, blockIds, toEvict⟩, after) ∧
      PoolInv after ∧ blockIds.length = keysToStore.length ∧
      ∀ key, after.get key = ((reservedAt keysToStore blockIds key).map BlockStatus.new).or
        (manager.get key) := by
  obtain ⟨blockIds, freeList, allocated, allocOk, length, bounded, slots⟩ :=
    allocate_blocks_ok inv keysToStore.length room
  obtain ⟨policyInv, getAfter, weighAfter⟩ := insert_blocks_ok keysToStore blockIds length distinct
    (manager.withSlots allocated freeList) inv.policy fresh
  have blockIds_eq : (blockIds.map BlockStatus.new).map BlockStatus.blockId = blockIds := by
    rw [List.map_map]
    exact List.map_id'' (fun _ => rfl) blockIds
  have lengths : (blockIds.map BlockStatus.new).length = keysToStore.length := by
    rw [List.length_map, length]
  refine ⟨blockIds, ((manager.withSlots allocated freeList).insertBlocks
    (keysToStore.zip (blockIds.map BlockStatus.new))).addWritePending keysToStore.length,
    ?_, ?_, length, getAfter⟩
  · simp only [CPUOffloadingManager.reserveBlocks, allocOk, ok_bind, py_assert_of lengths,
      blockIds_eq]
  · have weighSlots := weighAfter slotOf
    have weighIdle := weighAfter idleOne
    have weighPending := weighAfter pendingOne
    have slotSum : (blockIds.map fun id => slotOf (BlockStatus.new id)).sum =
        (blockIds : Multiset Nat) := sum_slots blockIds
    constructor
    · exact policyInv
    · refine (congrArg (fun total => total + (freeList : Multiset Nat)) weighSlots).trans ?_
      rw [slotSum]
      have counted : weigh manager slotOf + (blockIds : Multiset Nat) +
          (freeList : Multiset Nat) + Multiset.range manager.numAllocatedBlocks =
            Multiset.range allocated + Multiset.range manager.numAllocatedBlocks := by
        rw [add_assoc, add_assoc, ← add_assoc (blockIds : Multiset Nat), slots, ← add_assoc,
          inv.slots, add_comm]
      exact add_right_cancel counted
    · exact bounded
    · refine Eq.trans (b := manager.numEvictableCacheBlocks) rfl (Eq.trans ?_ weighIdle.symm)
      simpa [idleOne] using inv.evictable
    · refine Eq.trans (b := manager.numWritePendingBlocks + keysToStore.length) rfl
        (Eq.trans ?_ weighPending.symm)
      simpa [pendingOne, length] using inv.pending
    · intro key status found
      rcases Option.or_eq_some_iff.mp ((getAfter key).symm.trans found) with
        added | ⟨_, kept⟩
      · obtain ⟨blockId, _, rfl⟩ := Option.map_eq_some_iff.mp added
        exact le_rfl
      · exact inv.ref_cnt_ge key status kept

/-- What an accepted `prepare_store` did to the map. -/
structure StoreReserved (manager : CPUOffloadingManager P) (keys : List OffloadKey)
    (output : PrepareStoreOutput) (after : CPUOffloadingManager P) : Prop where
  requested : output.keysToStore.Sublist keys
  distinct : output.keysToStore.Nodup
  fresh : ∀ key ∈ output.keysToStore, manager.get key = none
  length_eq : output.storeSpec.length = output.keysToStore.length
  evicted_idle : ∀ key ∈ output.evictedKeys,
    ∃ block, manager.get key = some block ∧ block.refCnt = 0
  get_after : ∀ key, after.get key =
    ((reservedAt output.keysToStore output.storeSpec key).map BlockStatus.new).or
      (if key ∈ output.evictedKeys then none else manager.get key)

def StoreOutcome (manager : CPUOffloadingManager P) (keys : List OffloadKey) :
    Option PrepareStoreOutput → CPUOffloadingManager P → Prop
  | none, after => after.get = manager.get
  | some output, after => StoreReserved manager keys output after

theorem prepare_store_ok (inv : PoolInv manager) (keys : List OffloadKey)
    (bypassThreshold : Bool) (distinct : keys.Nodup) :
    ∃ output after, manager.prepareStore keys bypassThreshold = .ok (output, after) ∧
      PoolInv after ∧ StoreOutcome manager keys output after := by
  obtain ⟨gateSame, gateSublist⟩ := gate_keys_spec manager keys bypassThreshold
  unfold CPUOffloadingManager.prepareStore
  generalize manager.gateKeys keys bypassThreshold = gated at gateSame gateSublist
  obtain ⟨passing, gatedManager⟩ := gated
  simp only at gateSame gateSublist ⊢
  have gateInv := same_pool_inv gateSame inv
  have gateGet := same_pool_get gateSame
  generalize keys_eq : (passing.filter fun key => (gatedManager.get key).isNone) = keysToStore
  have keysSublist : keysToStore.Sublist keys := keys_eq ▸ List.filter_sublist.trans gateSublist
  have fresh : ∀ key ∈ keysToStore, manager.get key = none := by
    intro key member
    rw [← keys_eq, List.mem_filter, gateGet] at member
    simpa using member.2
  have keysNodup : keysToStore.Nodup := distinct.sublist keysSublist
  split
  · refine ⟨_, gatedManager, rfl, gateInv, ?_⟩
    constructor
    · exact List.nil_sublist keys
    · exact List.nodup_nil
    · simp
    · rfl
    · simp
    · simp [reservedAt, assocGet, gateGet]
  · generalize counted_eq : { gatedManager with
      allocationSizesInCurrentBatch :=
        gatedManager.allocationSizesInCurrentBatch ++ [keysToStore.length] } = counted
    have countedSame : SamePool gatedManager counted := by
      subst counted_eq
      exact ⟨rfl, rfl, rfl, rfl, rfl, rfl⟩
    have countedInv := same_pool_inv countedSame gateInv
    have countedGet : counted.get = manager.get := (same_pool_get countedSame).trans gateGet
    obtain ⟨evicted, roomy, roomOk, roomInv, room⟩ :=
      make_room_ok countedInv passing keysToStore.length
    cases evicted with
    | none =>
        refine ⟨none, roomy, by simp only [roomOk, ok_bind], roomInv, ?_⟩
        exact (same_pool_get room).trans countedGet
    | some toEvict =>
        obtain ⟨idle, roomGet, free⟩ := room
        have noted := note_evicted_same roomy toEvict
        have notedFree : (roomy.noteEvicted toEvict).getNumFreeBlocks =
            roomy.getNumFreeBlocks := by
          simp only [CPUOffloadingManager.getNumFreeBlocks, noted.freeList, noted.numBlocks,
            noted.allocated]
        have stillFresh : ∀ key ∈ keysToStore, (roomy.noteEvicted toEvict).get key = none := by
          intro key member
          rw [same_pool_get noted, roomGet, countedGet, fresh key member]
          exact ite_self none
        obtain ⟨blockIds, after, reserveOk, afterInv, length, afterGet⟩ :=
          reserve_blocks_ok (same_pool_inv noted roomInv) keysToStore toEvict
            (notedFree ▸ free) keysNodup stillFresh
        refine ⟨some ⟨keysToStore, blockIds, toEvict⟩, after,
          by simp only [roomOk, reserveOk, ok_bind], afterInv, ?_⟩
        constructor
        · exact keysSublist
        · exact keysNodup
        · exact fresh
        · exact length
        · intro key member
          rw [← countedGet]
          exact (idle key member).2
        · intro key
          rw [afterGet, same_pool_get noted, roomGet, countedGet]

/-- A completed store makes exactly the pending blocks among its keys ready. -/
def published (current : OffloadKey → Option BlockStatus) (keys : List OffloadKey)
    (key : OffloadKey) : Option BlockStatus :=
  (current key).map fun block =>
    if key ∈ keys ∧ block.refCnt < 0 then block.withRefCnt 0 else block

/-- A failed store drops exactly the pending blocks among its keys. -/
def discarded (current : OffloadKey → Option BlockStatus) (keys : List OffloadKey)
    (key : OffloadKey) : Option BlockStatus :=
  (current key).bind fun block => if key ∈ keys ∧ block.refCnt < 0 then none else some block

theorem published_single (current : OffloadKey → Option BlockStatus) (key other : OffloadKey) :
    published current [key] other =
      if other = key then (current key).map fun block =>
        if block.refCnt < 0 then block.withRefCnt 0 else block
      else current other := by
  by_cases same : other = key
  · simp [published, same]
  · cases found : current other <;> simp [published, same, found]

theorem published_cons (current : OffloadKey → Option BlockStatus) (key : OffloadKey)
    (rest : List OffloadKey) :
    published (published current [key]) rest = published current (key :: rest) := by
  funext other
  cases found : current other with
  | none => simp [published, found]
  | some block =>
      by_cases same : other = key
      · subst same
        by_cases pending : block.refCnt < 0 <;> simp [published, found, pending]
      · simp [published, found, same]

omit [LawfulCachePolicy P] in
theorem published_unchanged {key : OffloadKey}
    (settled : ∀ block, manager.get key = some block → 0 ≤ block.refCnt) :
    published manager.get [key] = manager.get := by
  funext other
  rw [published_single]
  split
  · rename_i same
    subst same
    cases found : manager.get other with
    | none => rfl
    | some block =>
        have notPending : ¬block.refCnt < 0 := not_lt.mpr (settled block found)
        simp [notPending]
  · rfl

theorem publish_block_spec (inv : PoolInv manager) (key : OffloadKey) :
    (manager.publishBlock key = none ∧ published manager.get [key] = manager.get) ∨
      ∃ after, manager.publishBlock key = some after ∧ PoolInv after ∧
        after.get = published manager.get [key] := by
  unfold CPUOffloadingManager.publishBlock
  cases found : manager.get key with
  | none => exact .inl ⟨rfl, published_unchanged (by simp [found])⟩
  | some block =>
      by_cases ready : 0 ≤ block.refCnt
      · refine .inl ⟨by simp [BlockStatus.isReady, ready], published_unchanged ?_⟩
        simpa [found] using ready
      · have pending : block.refCnt = -1 := by
          have lower := inv.ref_cnt_ge key block found
          omega
        have released := LawfulCachePolicy.get_release inv.policy found
        refine .inr ⟨_, by simp only [BlockStatus.isReady, ready, decide_false,
          Bool.false_eq_true, if_false]; rfl, ?_, ?_⟩
        · refine pool_inv_recount inv found
            (LawfulCachePolicy.inv_release inv.policy found (by omega)) released (by omega)
            rfl rfl rfl ?_ ?_
          · simp [idleOne, pending]
          · simp [pendingOne, pending]
        · funext other
          refine (released other).trans ?_
          rw [published_single, found]
          simp [pending, CPUOffloadingManager.get]

theorem publish_blocks_spec (keys : List OffloadKey) (inv : PoolInv manager) :
    PoolInv (manager.publishBlocks keys).2 ∧
      (manager.publishBlocks keys).2.get = published manager.get keys := by
  induction keys generalizing manager with
  | nil =>
      refine ⟨inv, funext fun key => ?_⟩
      cases found : manager.get key <;>
        simp [published, found, CPUOffloadingManager.publishBlocks]
  | cons key rest ih =>
      rw [← published_cons]
      rcases publish_block_spec inv key with ⟨skipped, same⟩ | ⟨after, ok, afterInv, afterGet⟩
      · simp only [CPUOffloadingManager.publishBlocks, skipped, same]
        exact ih inv
      · simp only [CPUOffloadingManager.publishBlocks, ok, ← afterGet]
        exact ih afterInv

theorem discarded_single (current : OffloadKey → Option BlockStatus) (key other : OffloadKey) :
    discarded current [key] other =
      if other = key then (current key).bind fun block =>
        if block.refCnt < 0 then none else some block
      else current other := by
  by_cases same : other = key
  · simp [discarded, same]
  · cases found : current other <;> simp [discarded, same, found]

theorem discarded_cons (current : OffloadKey → Option BlockStatus) (key : OffloadKey)
    (rest : List OffloadKey) :
    discarded (discarded current [key]) rest = discarded current (key :: rest) := by
  funext other
  cases found : current other with
  | none => simp [discarded, found]
  | some block =>
      by_cases same : other = key
      · subst same
        by_cases pending : block.refCnt < 0 <;> simp [discarded, found, pending]
      · simp [discarded, found, same]

omit [LawfulCachePolicy P] in
theorem discarded_unchanged {key : OffloadKey}
    (settled : ∀ block, manager.get key = some block → 0 ≤ block.refCnt) :
    discarded manager.get [key] = manager.get := by
  funext other
  rw [discarded_single]
  split
  · rename_i same
    subst same
    cases found : manager.get other with
    | none => rfl
    | some block =>
        have notPending : ¬block.refCnt < 0 := not_lt.mpr (settled block found)
        simp [notPending]
  · rfl

theorem discard_block_ok (inv : PoolInv manager) (key : OffloadKey) :
    ∃ after, manager.discardBlock key = .ok after ∧ PoolInv after ∧
      after.get = discarded manager.get [key] := by
  unfold CPUOffloadingManager.discardBlock
  cases found : manager.get key with
  | none => exact ⟨manager, rfl, inv, (discarded_unchanged (by simp [found])).symm⟩
  | some block =>
      by_cases ready : 0 ≤ block.refCnt
      · refine ⟨manager, by simp [BlockStatus.isReady, ready], inv,
          (discarded_unchanged ?_).symm⟩
        simpa [found] using ready
      · have pending : block.refCnt = -1 := by
          have lower := inv.ref_cnt_ge key block found
          omega
        obtain ⟨policy, removed, policyInv, policyGet⟩ :=
          LawfulCachePolicy.remove_ok inv.policy found
        refine ⟨_, by simp only [BlockStatus.isReady, ready, decide_false, Bool.false_eq_true,
          if_false, removed, ok_bind]; rfl, ?_, ?_⟩
        · refine pool_inv_remove inv [(key, block)] (List.nodup_singleton key) ?_ policyInv ?_
            rfl rfl rfl ?_ ?_
          · simpa using found
          · intro other
            refine (policyGet other).trans ?_
            simp [CPUOffloadingManager.get]
          · simp [CPUOffloadingManager.freeBlock, idleOne, pending]
          · simp [CPUOffloadingManager.freeBlock, pendingOne, pending]
        · funext other
          refine (policyGet other).trans ?_
          rw [discarded_single, found]
          simp [pending, CPUOffloadingManager.get]

theorem discard_blocks_ok (keys : List OffloadKey) (inv : PoolInv manager) :
    ∃ after, manager.discardBlocks keys = .ok after ∧ PoolInv after ∧
      after.get = discarded manager.get keys := by
  induction keys generalizing manager with
  | nil =>
      refine ⟨manager, rfl, inv, funext fun key => ?_⟩
      cases found : manager.get key <;> simp [discarded, found]
  | cons key rest ih =>
      obtain ⟨middle, middleOk, middleInv, middleGet⟩ := discard_block_ok inv key
      obtain ⟨after, afterOk, afterInv, afterGet⟩ := ih middleInv
      refine ⟨after, ?_, afterInv, ?_⟩
      · simp only [CPUOffloadingManager.discardBlocks, middleOk, ok_bind, afterOk]
      · rw [afterGet, middleGet, discarded_cons]

theorem complete_store_ok (inv : PoolInv manager) (keys : List OffloadKey) (success : Bool) :
    ∃ after, manager.completeStore keys success = .ok after ∧ PoolInv after ∧
      after.get = if success then published manager.get keys else discarded manager.get keys := by
  unfold CPUOffloadingManager.completeStore
  cases success with
  | false => simpa using discard_blocks_ok keys inv
  | true =>
      obtain ⟨publishedInv, publishedGet⟩ := publish_blocks_spec keys inv
      generalize manager.publishBlocks keys = result at publishedInv publishedGet
      obtain ⟨stored, middle⟩ := result
      simp only [if_true] at publishedInv publishedGet ⊢
      split
      · exact ⟨middle, rfl, publishedInv, publishedGet⟩
      · have same := same_pool_trans (clear_tombstones_same middle stored)
          (emit_same (middle.clearTombstones stored) stored false)
        exact ⟨_, rfl, same_pool_inv same publishedInv, (same_pool_get same).trans publishedGet⟩

theorem touch_ok (inv : PoolInv manager) (keys : List OffloadKey) :
    PoolInv (manager.touch keys) ∧ (manager.touch keys).get = manager.get := by
  have same : (manager.touch keys).get = manager.get :=
    funext fun key => LawfulCachePolicy.get_touch inv.policy keys key
  have policyInv : LawfulCachePolicy.Inv (manager.touch keys).policy :=
    LawfulCachePolicy.inv_touch inv.policy keys
  have sameWeigh : ∀ {A : Type} [AddCommMonoid A] (weight : BlockStatus → A),
      weigh (manager.touch keys) weight = weigh manager weight := by
    intro A _ weight
    exact total_congr weight (stored_set_covers inv.policy) (stored_set_covers policyInv)
      (congrFun same)
  refine ⟨?_, same⟩
  constructor
  · exact policyInv
  · rw [sameWeigh]
    exact inv.slots
  · exact inv.bounded
  · rw [sameWeigh]
    exact inv.evictable
  · rw [sameWeigh]
    exact inv.pending
  · rw [same]
    exact inv.ref_cnt_ge

theorem reset_cache_spec (manager : CPUOffloadingManager P) :
    PoolInv manager.resetCache ∧ manager.resetCache.get = fun _ => none := by
  have getAfter : manager.resetCache.get = fun _ => none :=
    funext fun key => LawfulCachePolicy.get_clear _ key
  refine ⟨?_, getAfter⟩
  have empty : ∀ {A : Type} [AddCommMonoid A] (weight : BlockStatus → A),
      weigh manager.resetCache weight = 0 := by
    intro A _ weight
    simp [weigh, total, getAfter]
  constructor
  · exact LawfulCachePolicy.inv_clear _
  · rw [empty]
    rfl
  · exact Nat.zero_le _
  · rw [empty]
    rfl
  · rw [empty]
    rfl
  · simp [getAfter]

theorem new_spec (params : CpuManagerParams) (policy : P)
    (policyInv : LawfulCachePolicy.Inv policy)
    (empty : ∀ key, CachePolicy.get policy key = none) :
    PoolInv (CPUOffloadingManager.new params policy) ∧
      (CPUOffloadingManager.new params policy).get = fun _ => none := by
  have getNew : (CPUOffloadingManager.new params policy).get = fun _ => none := funext empty
  refine ⟨?_, getNew⟩
  have weighNew : ∀ {A : Type} [AddCommMonoid A] (weight : BlockStatus → A),
      weigh (CPUOffloadingManager.new params policy) weight = 0 := by
    intro A _ weight
    simp [weigh, total, getNew]
  constructor
  · exact policyInv
  · rw [weighNew]
    rfl
  · exact Nat.zero_le _
  · rw [weighNew]
    rfl
  · rw [weighNew]
    rfl
  · simp [getNew]

end Operations

end KvOffload.CpuManagerSpec
