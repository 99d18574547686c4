import KvOffload.StoreAdmission

/-!
# The input of a store

`prepare_store` keeps the keys it is given out of the eviction, but only those the reuse
gate has left in its list. A stored key that the gate drops is evicted like any other when
it stands near the head of the policy's queue.
-/

namespace KvOffload.StoreInputs

open KvOffload KvOffload.Base KvOffload.PolicyInterface KvOffload.LruPolicy
open KvOffload.ArcPolicy KvOffload.CpuManager KvOffload.CpuPool KvOffload.PolicyMoves
open KvOffload.CpuManagerMoves KvOffload.EventRuns KvOffload.CpuHistories
open KvOffload.ArcRepresentation KvOffload.BatchEviction KvOffload.StoreAdmission

set_option autoImplicit false

section Histories

variable {P : Type} [CachePolicy P] [LawfulCachePolicy P] [TrackedPolicy P]

theorem apply_keeps_bound {history after : CpuHistory P} {event : CpuEvent}
    (tracked : TrackedPolicy.Tracked history.manager.policy) (bound : PoolBound history.manager)
    (applied : history.apply event = .ok after) : PoolBound after.manager := by
  by_cases plain : Plain event
  · obtain ⟨_, moves, emitted, performed, _⟩ := apply_call plain tracked applied
    exact performed_keeps_bound tracked bound performed
  · cases event with
    | resetCache =>
        cases applied
        apply empty_bound (TrackedPolicy.tracked_clear _)
        · exact LawfulCachePolicy.get_clear _
        · rfl
        · rfl
    | takeEvents =>
        have same := take_events_same history.manager
        cases applied
        exact same_keeps_bound same bound
    | _ => exact absurd trivial plain

/-- The pool is never allocated beyond its size. -/
theorem reached_bound {params : CpuManagerParams} {policy : P} {history : CpuHistory P}
    (tracked : TrackedPolicy.Tracked policy) (empty : ∀ key, CachePolicy.get policy key = none)
    (reached : CpuHistory.Reached params policy history) : PoolBound history.manager := by
  have start : PoolBound (CpuHistory.start params policy).manager :=
    empty_bound tracked empty rfl rfl
  have both := @reaches_invariant _ _ _ _ _
    (fun history : CpuHistory P =>
      TrackedPolicy.Tracked history.manager.policy ∧ PoolBound history.manager) _ _
    (fun _ _ _ inv _ applied =>
      ⟨apply_tracked inv.1 applied, apply_keeps_bound inv.1 inv.2 applied⟩)
    ⟨tracked, start⟩ reached
  exact both.2

end Histories

section Calls

variable {P : Type} [CachePolicy P]

/-- The call returns, and every key it was given that was stored still has its block. -/
def KeepsInput (manager : CPUOffloadingManager P) (keys : List OffloadKey)
    (bypassThreshold : Bool) : Prop :=
  ∃ output after, manager.prepareStore keys bypassThreshold = .ok (output, after) ∧
    ∀ key ∈ keys, ∀ block, manager.get key = some block →
      ∃ kept, after.get key = some kept ∧ kept.blockId = block.blockId

theorem same_get_keeps_input {manager after : CPUOffloadingManager P} {keys : List OffloadKey}
    {bypassThreshold : Bool} {output : Option PrepareStoreOutput}
    (prepared : manager.prepareStore keys bypassThreshold = .ok (output, after))
    (same : after.get = manager.get) : KeepsInput manager keys bypassThreshold := by
  refine ⟨output, after, prepared, ?_⟩
  intro key _ block stored
  rw [same]
  exact ⟨block, stored, rfl⟩

variable [LawfulCachePolicy P] [TrackedPolicy P]

open TrackedPolicy

theorem reserve_moves_get {policy after : P} {keys : List OffloadKey} (tracked : Tracked policy)
    (moved : Moves policy (keys.map .reserve) after) {key : OffloadKey} (outside : key ∉ keys) :
    CachePolicy.get after key = CachePolicy.get policy key := by
  induction keys generalizing policy with
  | nil =>
      obtain rfl := moved
      rfl
  | cons reserved rest ih =>
      obtain ⟨middle, first, later⟩ := moved
      rw [List.mem_cons, not_or] at outside
      rw [ih (tracked_moved tracked first) later outside.2]
      cases first with
      | reserve blockId unready =>
          rw [get_reserve blockId tracked unready, if_neg outside.1]

/-- An accepted store takes the stored keys it evicts and leaves the others alone. -/
theorem granted_get {manager after : CPUOffloadingManager P} {keys : List OffloadKey}
    {bypassThreshold : Bool} {output : PrepareStoreOutput} (tracked : Tracked manager.policy)
    (prepared : manager.prepareStore keys bypassThreshold = .ok (some output, after))
    {key : OffloadKey} {block : BlockStatus} (stored : manager.get key = some block) :
    after.get key = if key ∈ output.evictedKeys then none else some block := by
  have outside : key ∉ missingKeys manager keys bypassThreshold := by
    intro member
    have absent := (List.mem_filter.mp member).2
    rw [stored] at absent
    cases absent
  cases prepare_store_performed tracked prepared with
  | roomy stores evicts fits performed =>
      have kept : after.get key = manager.get key :=
        reserve_moves_get tracked performed.policy outside
      rw [kept, stored, evicts, if_neg List.not_mem_nil]
  | evicting stores evicts short performed =>
      obtain ⟨middle, first, later⟩ := performed.policy
      have kept := reserve_moves_get (tracked_moved tracked first) later outside
      cases first with
      | evict evicted =>
          have outcome := evicted_outcome tracked evicted
          have found : after.get key = CachePolicy.get after.policy key := rfl
          have before : CachePolicy.get manager.policy key = some block := stored
          rw [found, kept, outcome.get_after, evicts, before]

variable [OrderedEviction P] {manager : CPUOffloadingManager P}

/-- The input is kept exactly when the store is refused or none of its keys is among the
victims at the head of the queue. -/
theorem keeps_input_iff (tracked : Tracked manager.policy)
    (bounded : manager.numAllocatedBlocks ≤ manager.numBlocks) (keys : List OffloadKey)
    (bypassThreshold : Bool) :
    KeepsInput manager keys bypassThreshold ↔
      Overdrawn manager (passingKeys manager keys bypassThreshold)
          (deficit manager keys bypassThreshold) ∨
        ∀ key ∈ keys, key ∉ (storeOrder manager keys bypassThreshold).take
          (deficit manager keys bypassThreshold).toNat := by
  have inv := lawful tracked
  by_cases present : missingKeys manager keys bypassThreshold = []
  · have gated := gate_keys_same_store manager keys bypassThreshold
    have kept := same_get_keeps_input (prepare_store_present present)
      (same_pool_get (same_store_pool gated))
    have none : (deficit manager keys bypassThreshold).toNat = 0 := by
      unfold deficit CPUOffloadingManager.getNumFreeBlocks
      rw [present, List.length_nil]
      omega
    rw [none, List.take_zero]
    exact iff_of_true kept (.inr fun _ _ => List.not_mem_nil)
  · by_cases overdrawn : Overdrawn manager (passingKeys manager keys bypassThreshold)
        (deficit manager keys bypassThreshold)
    · obtain ⟨after, refused, same⟩ := prepare_store_refused inv present overdrawn
      exact iff_of_true (same_get_keeps_input refused (same_pool_get (same_store_pool same)))
        (.inl overdrawn)
    · obtain ⟨output, after, granted, evicted⟩ :=
        prepare_store_granted inv bounded present overdrawn
      rw [or_iff_right overdrawn, ← evicted]
      constructor
      · intro keeps key member victim
        obtain ⟨_, left, prepared, kept⟩ := keeps
        cases granted.symm.trans prepared
        have queued : key ∈ storeOrder manager keys bypassThreshold := by
          rw [evicted] at victim
          exact List.mem_of_mem_take victim
        obtain ⟨_, block, stored, _⟩ := (order_spec inv _).2 key queued
        obtain ⟨found, still, _⟩ := kept key member block stored
        rw [granted_get tracked granted stored, if_pos victim] at still
        cases still
      · intro apart
        refine ⟨_, _, granted, ?_⟩
        intro key member block stored
        rw [granted_get tracked granted stored, if_neg (apart key member)]
        exact ⟨block, rfl, rfl⟩

end Calls

/-- No key of a store's input stands where the store evicts. -/
def InputClear {P : Type} [CachePolicy P] [LawfulCachePolicy P] [OrderedEviction P]
    (manager : CPUOffloadingManager P) (keys : List OffloadKey) (bypassThreshold : Bool) : Prop :=
  Overdrawn manager (passingKeys manager keys bypassThreshold)
      (deficit manager keys bypassThreshold) ∨
    ∀ key ∈ keys, key ∉ (storeOrder manager keys bypassThreshold).take
      (deficit manager keys bypassThreshold).toNat

/-- In every history of either policy, for any input. -/
theorem lru_and_arc_keep_input_iff (params : CpuManagerParams) (cacheCapacity : Nat)
    (rounding : FloatRounding.Rounding) (keys : List OffloadKey) (bypassThreshold : Bool) :
    (∀ history, CpuHistory.Reached params (LRUCachePolicy.new cacheCapacity) history →
        (KeepsInput history.manager keys bypassThreshold ↔
          InputClear history.manager keys bypassThreshold)) ∧
      ∀ history, CpuHistory.Reached params (ARCCachePolicy.new cacheCapacity rounding) history →
        (KeepsInput history.manager keys bypassThreshold ↔
          InputClear history.manager keys bypassThreshold) := by
  constructor
  · intro history reached
    exact keeps_input_iff (reached_tracked (lru_new_tracked cacheCapacity) reached)
      (reached_bound (lru_new_tracked cacheCapacity) (fun _ => rfl) reached).bounded
      keys bypassThreshold
  · intro history reached
    exact keeps_input_iff (reached_tracked (new_inv cacheCapacity rounding) reached)
      (reached_bound (new_inv cacheCapacity rounding) (fun _ => rfl) reached).bounded
      keys bypassThreshold

/-- A pool of one block with a store threshold of two. The first key enters past the gate,
the second is looked up twice. -/
def bypassEvents : List CpuEvent :=
  [.prepareStore [⟨[1], 0⟩] true, .completeStore [⟨[1], 0⟩] true, .lookup ⟨[2], 0⟩,
    .lookup ⟨[2], 0⟩]

/-- Both keys are offered; the one the pool holds makes room for the other. -/
theorem bypassed_key_evicted : ∃ history : CpuHistory LRUCachePolicy,
    CpuHistory.Reached { numBlocks := 1, storeThreshold := 2 } (LRUCachePolicy.new 1) history ∧
      ¬KeepsInput history.manager [⟨[1], 0⟩, ⟨[2], 0⟩] false := by
  have replayed : (EventRuns.replay CpuHistory.apply (fun _ _ => True)
      (CpuHistory.start { numBlocks := 1, storeThreshold := 2 } (LRUCachePolicy.new 1))
      bypassEvents).map (fun history =>
        (history.manager.get ⟨[1], 0⟩,
          (history.manager.prepareStore [⟨[1], 0⟩, ⟨[2], 0⟩] false).toOption.map
            fun result => result.2.get ⟨[1], 0⟩)) = some (some ⟨0, 0⟩, some none) := by
    decide +kernel
  obtain ⟨history, reached, seen⟩ := EventRuns.exists_of_replay replayed
  simp only [Prod.mk.injEq] at seen
  obtain ⟨stored, gone⟩ := seen
  refine ⟨history, reached, ?_⟩
  intro keeps
  obtain ⟨output, after, prepared, kept⟩ := keeps
  obtain ⟨found, still, _⟩ := kept ⟨[1], 0⟩ List.mem_cons_self _ stored
  rw [prepared] at gone
  simp only [Except.toOption, Option.map_some, Option.some.injEq] at gone
  rw [gone] at still
  cases still

/-- A pool of two blocks, both entered past the gate, and a third key looked up twice. -/
def spareEvents : List CpuEvent :=
  [.prepareStore [⟨[3], 0⟩, ⟨[1], 0⟩] true, .completeStore [⟨[3], 0⟩, ⟨[1], 0⟩] true,
    .lookup ⟨[2], 0⟩, .lookup ⟨[2], 0⟩]

/-- What the store of a gated key and of the new one would evict, and does. -/
def spareStore {P : Type} [CachePolicy P] [LawfulCachePolicy P] [OrderedEviction P]
    (manager : CPUOffloadingManager P) : List OffloadKey × Option (List OffloadKey) :=
  ((storeOrder manager [⟨[1], 0⟩, ⟨[2], 0⟩] false).take
      (deficit manager [⟨[1], 0⟩, ⟨[2], 0⟩] false).toNat,
    (manager.prepareStore [⟨[1], 0⟩, ⟨[2], 0⟩] false).toOption.bind fun result =>
      result.1.map (·.evictedKeys))

theorem spare_store_clear {P : Type} [CachePolicy P] [LawfulCachePolicy P] [OrderedEviction P]
    {manager : CPUOffloadingManager P} {evicted : Option (List OffloadKey)}
    (seen : spareStore manager = ([⟨[3], 0⟩], evicted)) :
    InputClear manager [⟨[1], 0⟩, ⟨[2], 0⟩] false := by
  right
  intro key member
  have victims := congrArg Prod.fst seen
  simp only [spareStore] at victims
  rw [victims, List.mem_singleton]
  rintro rfl
  simp at member

/-- The gate drops the stored key, and the block before it makes room for the other. -/
theorem dropped_key_kept :
    (∃ history : CpuHistory LRUCachePolicy,
      CpuHistory.Reached { numBlocks := 2, storeThreshold := 2 } (LRUCachePolicy.new 2) history ∧
        history.manager.get ⟨[1], 0⟩ = some ⟨0, 1⟩ ∧
        (spareStore history.manager).2 = some [⟨[3], 0⟩] ∧
        KeepsInput history.manager [⟨[1], 0⟩, ⟨[2], 0⟩] false) ∧
      ∃ history : CpuHistory ARCCachePolicy,
        CpuHistory.Reached { numBlocks := 2, storeThreshold := 2 }
            (ARCCachePolicy.new 2 FloatRounding.doubles) history ∧
          history.manager.get ⟨[1], 0⟩ = some ⟨0, 1⟩ ∧
          (spareStore history.manager).2 = some [⟨[3], 0⟩] ∧
          KeepsInput history.manager [⟨[1], 0⟩, ⟨[2], 0⟩] false := by
  constructor
  · have replayed : (EventRuns.replay CpuHistory.apply (fun _ _ => True)
        (CpuHistory.start { numBlocks := 2, storeThreshold := 2 } (LRUCachePolicy.new 2))
        spareEvents).map (fun history =>
          (history.manager.get ⟨[1], 0⟩, spareStore history.manager)) =
        some (some ⟨0, 1⟩, [⟨[3], 0⟩], some [⟨[3], 0⟩]) := by
      decide +kernel
    obtain ⟨history, reached, seen⟩ := EventRuns.exists_of_replay replayed
    obtain ⟨stored, evicts⟩ := Prod.mk.inj seen
    exact ⟨history, reached, stored, congrArg Prod.snd evicts,
      ((lru_and_arc_keep_input_iff _ 2 .exact _ false).1 history reached).mpr
        (spare_store_clear evicts)⟩
  · have replayed : (EventRuns.replay CpuHistory.apply (fun _ _ => True)
        (CpuHistory.start { numBlocks := 2, storeThreshold := 2 }
          (ARCCachePolicy.new 2 FloatRounding.doubles)) spareEvents).map (fun history =>
          (history.manager.get ⟨[1], 0⟩, spareStore history.manager)) =
        some (some ⟨0, 1⟩, [⟨[3], 0⟩], some [⟨[3], 0⟩]) := by
      decide +kernel
    obtain ⟨history, reached, seen⟩ := EventRuns.exists_of_replay replayed
    obtain ⟨stored, evicts⟩ := Prod.mk.inj seen
    exact ⟨history, reached, stored, congrArg Prod.snd evicts,
      ((lru_and_arc_keep_input_iff _ 2 _ _ false).2 history reached).mpr
        (spare_store_clear evicts)⟩

end KvOffload.StoreInputs
