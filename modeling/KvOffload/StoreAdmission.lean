import KvOffload.BatchEviction
import KvOffload.CpuManagerRuns

/-!
# When a store is admitted

`prepare_store` refuses a store before it changes anything but its statistics. Whether it
does is decided by the blocks it is short of, the cap of a call, and the length of the
policy's queue; what it evicts is the head of that queue.
-/

namespace KvOffload.StoreAdmission

open KvOffload KvOffload.Base KvOffload.PolicyInterface KvOffload.LruPolicy
open KvOffload.ArcPolicy KvOffload.CpuManager KvOffload.CpuPool KvOffload.CpuManagerSpec
open KvOffload.PolicyMoves KvOffload.CpuManagerMoves KvOffload.CpuManagerRuns
open KvOffload.EventRuns KvOffload.CpuHistories KvOffload.ArcRepresentation
open KvOffload.QueueBatches KvOffload.EvictionOrder KvOffload.BatchEviction

set_option autoImplicit false

/-- A policy that evicts from a queue of keys. -/
class OrderedEviction (P : Type) [CachePolicy P] [LawfulCachePolicy P] where
  order : List OffloadKey → P → List OffloadKey
  evict_short : ∀ {policy : P}, LawfulCachePolicy.Inv policy → ∀ {guarded count},
    (order guarded policy).length < count → CachePolicy.evict policy count guarded = .ok none
  evict_enough : ∀ {policy : P}, LawfulCachePolicy.Inv policy → ∀ {guarded count},
    count ≤ (order guarded policy).length → ∃ victims after,
      CachePolicy.evict policy count guarded = .ok (some (victims, after)) ∧
        victims.map Prod.fst = (order guarded policy).take count

instance : OrderedEviction LRUCachePolicy where
  order guarded policy := (lruOrder guarded policy).map Prod.fst
  evict_short {policy} inv guarded count short := by
    rw [List.length_map] at short
    have evicted : CachePolicy.evict policy count guarded = _ := lru_evict_batch inv guarded count
    rw [evicted, Queue.batch, if_neg (Nat.ne_zero_of_lt short)]
    exact congrArg Except.ok (if_pos short)
  evict_enough {policy} inv guarded count enough := by
    rw [List.length_map] at enough
    have evicted : CachePolicy.evict policy count guarded = _ := lru_evict_batch inv guarded count
    rw [evicted, Queue.batch, ← List.map_take]
    by_cases nothing : count = 0
    · rw [if_pos nothing, nothing]
      exact ⟨[], policy, rfl, rfl⟩
    · rw [if_neg nothing]
      exact ⟨_, _, congrArg Except.ok (if_neg (not_lt.mpr enough)), rfl⟩

instance : OrderedEviction ARCCachePolicy where
  order guarded policy := (arcOrder guarded policy).map fun candidate => candidate.1.1
  evict_short {policy} _ guarded count short := by
    rw [List.length_map] at short
    have evicted : CachePolicy.evict policy count guarded = .ok (policy.evict count guarded) := rfl
    rw [evicted, arc_evict_eq, if_neg (Nat.ne_zero_of_lt short), if_pos short]
  evict_enough {policy} _ guarded count enough := by
    rw [List.length_map] at enough
    have evicted : CachePolicy.evict policy count guarded = .ok (policy.evict count guarded) := rfl
    rw [evicted, arc_evict_eq, ← List.map_take]
    by_cases nothing : count = 0
    · rw [if_pos nothing, nothing]
      exact ⟨[], policy, rfl, rfl⟩
    · rw [if_neg nothing, if_neg (not_lt.mpr enough)]
      refine ⟨_, _, rfl, ?_⟩
      rw [List.map_map]
      rfl

section Queue

variable {P : Type} [CachePolicy P] [LawfulCachePolicy P] [OrderedEviction P] {policy : P}

open OrderedEviction

/-- The queue holds idle keys outside the protected ones, each once. -/
theorem order_spec (inv : LawfulCachePolicy.Inv policy) (guarded : List OffloadKey) :
    (order guarded policy).Nodup ∧ ∀ key ∈ order guarded policy, key ∉ guarded ∧
      ∃ block, CachePolicy.get policy key = some block ∧ block.refCnt = 0 := by
  obtain ⟨victims, after, evicted, all⟩ := evict_enough inv (le_refl (order guarded policy).length)
  rw [List.take_length] at all
  rcases LawfulCachePolicy.evict_ok inv (order guarded policy).length guarded with
    failed | ⟨found, left, succeeded, _, outcome⟩
  · cases evicted.symm.trans failed
  · cases evicted.symm.trans succeeded
    rw [← all]
    refine ⟨outcome.distinct, ?_⟩
    intro key member
    obtain ⟨victim, victimMember, rfl⟩ := List.mem_map.mp member
    exact ⟨outcome.unguarded victim victimMember, victim.2, outcome.idle victim victimMember⟩

end Queue

section Outcome

variable {P : Type}

/-- Nothing but the statistics of the calls differs. -/
def SameStore (manager after : CPUOffloadingManager P) : Prop :=
  { after with
    storesSkippedInCurrentBatch := manager.storesSkippedInCurrentBatch
    allocationSizesInCurrentBatch := manager.allocationSizesInCurrentBatch
    evictionCappedTotal := manager.evictionCappedTotal
    evictionCappedDecayTotal := manager.evictionCappedDecayTotal } = manager

theorem same_store_trans {first second third : CPUOffloadingManager P}
    (left : SameStore first second) (right : SameStore second third) : SameStore first third := by
  unfold SameStore at left right ⊢
  rw [← left]
  rw [← right]

theorem same_store_pool {manager after : CPUOffloadingManager P}
    (same : SameStore manager after) : SamePool manager after := by
  unfold SameStore at same
  rw [← same]
  exact ⟨rfl, rfl, rfl, rfl, rfl, rfl⟩

theorem gate_keys_same_store (manager : CPUOffloadingManager P) (keys : List OffloadKey)
    (bypassThreshold : Bool) : SameStore manager (manager.gateKeys keys bypassThreshold).2 := by
  unfold CPUOffloadingManager.gateKeys
  split
  · rfl
  · split <;> rfl

theorem cap_eviction_same_store (manager : CPUOffloadingManager P) (requested : Int) :
    SameStore manager (manager.capEviction requested).2 := by
  unfold CPUOffloadingManager.capEviction
  split <;> rfl

/-- The cap cuts what a call asks for. -/
def Capped (manager : CPUOffloadingManager P) (requested : Int) : Prop :=
  0 < manager.evictionCallCap ∧ (manager.evictionCallCap : Int) < requested

variable [CachePolicy P]

/-- The blocks a store needs beyond the free ones. -/
def deficit (manager : CPUOffloadingManager P) (keys : List OffloadKey)
    (bypassThreshold : Bool) : Int :=
  (missingKeys manager keys bypassThreshold).length - manager.getNumFreeBlocks

variable [LawfulCachePolicy P] [OrderedEviction P]

open OrderedEviction

/-- The order in which a store would evict. -/
def storeOrder (manager : CPUOffloadingManager P) (keys : List OffloadKey)
    (bypassThreshold : Bool) : List OffloadKey :=
  order (passingKeys manager keys bypassThreshold) manager.policy

/-- Too much is asked for: more than the cap, the counter or the queue allows. -/
def Overdrawn (manager : CPUOffloadingManager P) (passing : List OffloadKey) (requested : Int) :
    Prop :=
  0 < requested ∧ (Capped manager requested ∨ manager.numEvictableCacheBlocks < requested ∨
    ((order passing manager.policy).length : Int) < requested)

theorem make_room_refused {manager : CPUOffloadingManager P}
    (inv : LawfulCachePolicy.Inv manager.policy) {passing : List OffloadKey} {numToStore : Nat}
    (overdrawn : Overdrawn manager passing (numToStore - manager.getNumFreeBlocks)) :
    ∃ after, manager.makeRoom passing numToStore = .ok (none, after) ∧ SameStore manager after := by
  obtain ⟨short, excess⟩ := overdrawn
  have sameStore := cap_eviction_same_store manager (numToStore - manager.getNumFreeBlocks)
  unfold CPUOffloadingManager.makeRoom
  simp only [if_pos short]
  unfold CPUOffloadingManager.capEviction at sameStore ⊢
  by_cases capped : Capped manager (numToStore - manager.getNumFreeBlocks)
  · simp only [if_pos (show 0 < manager.evictionCallCap ∧ _ from capped)] at sameStore ⊢
    rw [if_pos (.inr (by have := capped.2; omega))]
    exact ⟨_, rfl, sameStore⟩
  · simp only [if_neg (show ¬(0 < manager.evictionCallCap ∧ _) from capped)] at sameStore ⊢
    have excess := excess.resolve_left capped
    by_cases counted : manager.numEvictableCacheBlocks < numToStore - manager.getNumFreeBlocks
    · rw [if_pos (.inl counted)]
      exact ⟨_, rfl, sameStore⟩
    · have queue := excess.resolve_left counted
      rw [if_neg (by omega), evict_short inv (by omega)]
      exact ⟨_, rfl, sameStore⟩

theorem make_room_granted {manager : CPUOffloadingManager P}
    (inv : LawfulCachePolicy.Inv manager.policy) {passing : List OffloadKey} {numToStore : Nat}
    (covered : ¬Overdrawn manager passing (numToStore - manager.getNumFreeBlocks)) :
    ∃ after, manager.makeRoom passing numToStore =
        .ok (some ((order passing manager.policy).take
          (numToStore - manager.getNumFreeBlocks).toNat), after) ∧
      (numToStore : Int) ≤ after.getNumFreeBlocks ∧
      after.numAllocatedBlocks = manager.numAllocatedBlocks ∧
      after.numBlocks = manager.numBlocks := by
  unfold CPUOffloadingManager.makeRoom
  by_cases short : 0 < numToStore - manager.getNumFreeBlocks
  · have within : ¬Capped manager (numToStore - manager.getNumFreeBlocks) ∧
        numToStore - manager.getNumFreeBlocks ≤ manager.numEvictableCacheBlocks ∧
        numToStore - manager.getNumFreeBlocks ≤ (order passing manager.policy).length := by
      refine ⟨fun capped => covered ⟨short, .inl capped⟩, ?_, ?_⟩
      · by_contra more
        exact covered ⟨short, .inr (.inl (not_le.mp more))⟩
      · by_contra more
        exact covered ⟨short, .inr (.inr (not_le.mp more))⟩
    obtain ⟨uncapped, counted, queue⟩ := within
    simp only [if_pos short]
    unfold CPUOffloadingManager.capEviction
    simp only [if_neg (show ¬(0 < manager.evictionCallCap ∧ _) from uncapped)]
    obtain ⟨victims, policy, evicted, head⟩ := evict_enough inv
      (show (numToStore - manager.getNumFreeBlocks).toNat ≤
        (order passing manager.policy).length by omega)
    have length : victims.length = (numToStore - manager.getNumFreeBlocks).toNat := by
      have lengths := congrArg List.length head
      rw [List.length_map, List.length_take] at lengths
      omega
    have kept : (0 : Int) ≤ manager.numEvictableCacheBlocks - victims.length := by omega
    rw [if_neg (by omega)]
    simp only [evicted, ok_bind, py_assert_of kept, head]
    refine ⟨_, rfl, ?_, ?_, ?_⟩
    · rw [CPUOffloadingManager.takeVictims, free_victims_spec]
      simp only [CPUOffloadingManager.getNumFreeBlocks, List.length_append, List.length_reverse,
        List.length_map] at length short ⊢
      push_cast
      omega
    · rw [CPUOffloadingManager.takeVictims, free_victims_spec]
    · rw [CPUOffloadingManager.takeVictims, free_victims_spec]
  · simp only [if_neg short]
    have none : (numToStore - manager.getNumFreeBlocks).toNat = 0 := by omega
    rw [none, List.take_zero]
    exact ⟨manager, rfl, by omega, rfl, rfl⟩

variable {manager : CPUOffloadingManager P} {keys : List OffloadKey} {bypassThreshold : Bool}

omit [LawfulCachePolicy P] [OrderedEviction P] in
theorem gated_missing (manager : CPUOffloadingManager P) (keys : List OffloadKey)
    (bypassThreshold : Bool) :
    ((manager.gateKeys keys bypassThreshold).1.filter fun key =>
      ((manager.gateKeys keys bypassThreshold).2.get key).isNone) =
        missingKeys manager keys bypassThreshold := by
  rw [same_pool_get (same_store_pool (gate_keys_same_store manager keys bypassThreshold))]
  rfl

/-- The manager as `prepare_store` hands it to the eviction. -/
def entered (manager : CPUOffloadingManager P) (keys : List OffloadKey)
    (bypassThreshold : Bool) : CPUOffloadingManager P :=
  { (manager.gateKeys keys bypassThreshold).2 with
    allocationSizesInCurrentBatch :=
      (manager.gateKeys keys bypassThreshold).2.allocationSizesInCurrentBatch ++
        [(missingKeys manager keys bypassThreshold).length] }

omit [LawfulCachePolicy P] [OrderedEviction P] in
theorem entered_same_store (manager : CPUOffloadingManager P) (keys : List OffloadKey)
    (bypassThreshold : Bool) : SameStore manager (entered manager keys bypassThreshold) :=
  same_store_trans (gate_keys_same_store manager keys bypassThreshold) rfl

omit [LawfulCachePolicy P] [OrderedEviction P] in
theorem prepare_store_eq (missing : missingKeys manager keys bypassThreshold ≠ []) :
    manager.prepareStore keys bypassThreshold = (do
      match ← (entered manager keys bypassThreshold).makeRoom
          (passingKeys manager keys bypassThreshold)
          (missingKeys manager keys bypassThreshold).length with
      | (none, roomy) => .ok (none, roomy)
      | (some toEvict, roomy) => do
          let (output, after) ← (roomy.noteEvicted toEvict).reserveBlocks
            (missingKeys manager keys bypassThreshold) toEvict
          .ok (some output, after)) := by
  unfold CPUOffloadingManager.prepareStore
  simp only
  rw [gated_missing, if_neg missing]
  rfl

omit [OrderedEviction P] [LawfulCachePolicy P] [CachePolicy P] in
theorem same_store_free {after : CPUOffloadingManager P} (same : SameStore manager after) :
    after.getNumFreeBlocks = manager.getNumFreeBlocks := by
  have pool := same_store_pool same
  simp only [CPUOffloadingManager.getNumFreeBlocks, pool.freeList, pool.numBlocks, pool.allocated]

theorem same_store_overdrawn {after : CPUOffloadingManager P} (same : SameStore manager after)
    (passing : List OffloadKey) (requested : Int) :
    Overdrawn after passing requested ↔ Overdrawn manager passing requested := by
  have cap : after.evictionCallCap = manager.evictionCallCap := by
    unfold SameStore at same
    rw [← same]
  have pool := same_store_pool same
  unfold Overdrawn Capped
  rw [cap, pool.evictable, pool.policy]

theorem entered_overdrawn :
    Overdrawn (entered manager keys bypassThreshold) (passingKeys manager keys bypassThreshold)
        ((missingKeys manager keys bypassThreshold).length -
          (entered manager keys bypassThreshold).getNumFreeBlocks) ↔
      Overdrawn manager (passingKeys manager keys bypassThreshold)
        (deficit manager keys bypassThreshold) := by
  have same := entered_same_store manager keys bypassThreshold
  rw [same_store_free same, same_store_overdrawn same]
  rfl

/-- An overdrawn store returns `None` and leaves the pool as it was. -/
theorem prepare_store_refused (inv : LawfulCachePolicy.Inv manager.policy)
    (missing : missingKeys manager keys bypassThreshold ≠ [])
    (overdrawn : Overdrawn manager (passingKeys manager keys bypassThreshold)
      (deficit manager keys bypassThreshold)) :
    ∃ after, manager.prepareStore keys bypassThreshold = .ok (none, after) ∧
      SameStore manager after := by
  have same := entered_same_store manager keys bypassThreshold
  have stillInv : LawfulCachePolicy.Inv (entered manager keys bypassThreshold).policy := by
    rw [(same_store_pool same).policy]
    exact inv
  obtain ⟨after, made, refused⟩ := make_room_refused stillInv (entered_overdrawn.mpr overdrawn)
  rw [prepare_store_eq missing, made]
  exact ⟨after, rfl, same_store_trans same refused⟩

omit [CachePolicy P] [LawfulCachePolicy P] [OrderedEviction P] in
theorem allocate_blocks_enough {count : Nat} (bounded : manager.numAllocatedBlocks ≤ manager.numBlocks)
    (room : (count : Int) ≤ manager.getNumFreeBlocks) :
    ∃ blocks after, manager.allocateBlocks count = .ok (blocks, after) ∧ blocks.length = count := by
  unfold CPUOffloadingManager.getNumFreeBlocks at room
  unfold CPUOffloadingManager.allocateBlocks
  generalize min_eq : min count (manager.numBlocks - manager.numAllocatedBlocks) = fresh
  have reused : count - fresh ≤ manager.freeList.length := by omega
  refine ⟨_, _, by simp only [py_assert_of reused, ok_bind]; rfl, ?_⟩
  simp only [List.length_map, List.length_append, List.length_range', List.length_take]
  omega

omit [LawfulCachePolicy P] [OrderedEviction P] in
theorem reserve_blocks_enough (bounded : manager.numAllocatedBlocks ≤ manager.numBlocks)
    {keysToStore toEvict : List OffloadKey}
    (room : (keysToStore.length : Int) ≤ manager.getNumFreeBlocks) :
    ∃ output after, manager.reserveBlocks keysToStore toEvict = .ok (output, after) ∧
      output.evictedKeys = toEvict := by
  obtain ⟨blocks, after, allocated, length⟩ := allocate_blocks_enough bounded room
  unfold CPUOffloadingManager.reserveBlocks
  simp only [allocated, ok_bind, py_assert_of length]
  exact ⟨_, _, rfl, rfl⟩

/-- Any other store is accepted and evicts the head of the queue. -/
theorem prepare_store_granted (inv : LawfulCachePolicy.Inv manager.policy)
    (bounded : manager.numAllocatedBlocks ≤ manager.numBlocks)
    (missing : missingKeys manager keys bypassThreshold ≠ [])
    (covered : ¬Overdrawn manager (passingKeys manager keys bypassThreshold)
      (deficit manager keys bypassThreshold)) :
    ∃ output after, manager.prepareStore keys bypassThreshold = .ok (some output, after) ∧
      output.evictedKeys = (storeOrder manager keys bypassThreshold).take
        (deficit manager keys bypassThreshold).toNat := by
  have same := entered_same_store manager keys bypassThreshold
  have pool := same_store_pool same
  have stillInv : LawfulCachePolicy.Inv (entered manager keys bypassThreshold).policy := by
    rw [pool.policy]
    exact inv
  obtain ⟨roomy, made, room, allocated, numBlocks⟩ :=
    make_room_granted stillInv (mt entered_overdrawn.mp covered)
  rw [same_store_free same, pool.policy] at made
  rw [prepare_store_eq missing, made]
  simp only [ok_bind]
  have noted := note_evicted_same roomy ((storeOrder manager keys bypassThreshold).take
    (deficit manager keys bypassThreshold).toNat)
  have notedBound : (roomy.noteEvicted ((storeOrder manager keys bypassThreshold).take
      (deficit manager keys bypassThreshold).toNat)).numAllocatedBlocks ≤
        (roomy.noteEvicted ((storeOrder manager keys bypassThreshold).take
          (deficit manager keys bypassThreshold).toNat)).numBlocks := by
    rw [noted.allocated, noted.numBlocks, allocated, numBlocks, pool.allocated, pool.numBlocks]
    exact bounded
  have notedRoom : ((missingKeys manager keys bypassThreshold).length : Int) ≤
      (roomy.noteEvicted ((storeOrder manager keys bypassThreshold).take
        (deficit manager keys bypassThreshold).toNat)).getNumFreeBlocks := by
    simpa only [CPUOffloadingManager.getNumFreeBlocks, noted.freeList, noted.numBlocks,
      noted.allocated] using room
  obtain ⟨output, after, reserved, evicted⟩ := reserve_blocks_enough notedBound notedRoom
  unfold storeOrder deficit at reserved
  rw [reserved]
  exact ⟨output, after, rfl, evicted⟩

omit [LawfulCachePolicy P] [OrderedEviction P] in
theorem prepare_store_present (present : missingKeys manager keys bypassThreshold = []) :
    manager.prepareStore keys bypassThreshold =
      .ok (some ⟨[], [], []⟩, (manager.gateKeys keys bypassThreshold).2) := by
  unfold CPUOffloadingManager.prepareStore
  simp only
  rw [gated_missing, if_pos present]

end Outcome

end KvOffload.StoreAdmission
