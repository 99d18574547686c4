import KvOffload.StoreInputs

/-!
# The evictable counter

`prepare_store` compares what it is short of with a counter of the evictable blocks. The
counter is the number of idle stored keys in every history, also when the keys of a call
are not distinct.
-/

namespace KvOffload.EvictableCounts

open KvOffload KvOffload.Base KvOffload.PolicyInterface KvOffload.FiniteTotals
open KvOffload.CpuManager KvOffload.CpuPool KvOffload.CpuManagerSpec KvOffload.PolicyMoves
open KvOffload.CpuManagerMoves KvOffload.EventRuns KvOffload.CpuHistories
open KvOffload.BatchEviction

set_option autoImplicit false

variable {P : Type} [CachePolicy P]

def Counted (manager : CPUOffloadingManager P) : Prop :=
  manager.numEvictableCacheBlocks = weigh manager idleOne

theorem same_pool_counted {manager after : CPUOffloadingManager P} (same : SamePool manager after)
    (counted : Counted manager) : Counted after := by
  unfold Counted weigh storedSet at counted ⊢
  rw [same_pool_get same, same.policy, same.evictable, counted]

variable [LawfulCachePolicy P] [TrackedPolicy P] {manager after : CPUOffloadingManager P}

open TrackedPolicy

/-- One key changes its block, and the counter follows. -/
theorem counted_update (tracked : Tracked manager.policy) (trackedAfter : Tracked after.policy)
    (counted : Counted manager) {key : OffloadKey} {value : Option BlockStatus}
    (update : ∀ other, after.get other = if other = key then value else manager.get other)
    (follows : after.numEvictableCacheBlocks + (manager.get key).elim 0 idleOne =
      manager.numEvictableCacheBlocks + value.elim 0 idleOne) : Counted after := by
  have moved := total_update idleOne (stored_set_covers (lawful tracked))
    (stored_set_covers (lawful trackedAfter)) key value update
  unfold Counted weigh at counted ⊢
  omega

theorem pin_block_counted {key : OffloadKey} {blockId : Nat} (tracked : Tracked manager.policy)
    (counted : Counted manager) (pinned : manager.pinBlock key = .ok (blockId, after)) :
    Counted after := by
  obtain ⟨_, performed, _⟩ := pin_block_performed pinned
  have trackedAfter := tracked_moves tracked performed.policy
  unfold CPUOffloadingManager.pinBlock at pinned
  cases stored : manager.get key with
  | none => simp [stored] at pinned
  | some block =>
      simp only [stored] at pinned
      obtain ⟨_, ready, pinned⟩ := bind_eq_ok.mp pinned
      have nonneg := ready_iff.mp (py_assert_eq_ok.mp ready)
      by_cases idle : block.refCnt = 0
      · simp only [idle, if_true] at pinned
        obtain ⟨policy, marked, pinned⟩ := bind_eq_ok.mp pinned
        obtain ⟨_, _, done⟩ := bind_eq_ok.mp pinned
        cases done
        apply counted_update tracked trackedAfter counted (pinned_get tracked stored idle marked)
        rw [stored]
        simp [idleOne, idle]
      · simp only [idle, if_false] at pinned
        cases pinned
        apply counted_update tracked trackedAfter counted
          (LawfulCachePolicy.get_recount (lawful tracked) stored)
        have busy : block.refCnt + 1 ≠ 0 := by omega
        rw [stored]
        simp [idleOne, idle, busy]

theorem prepare_load_counted (keys : List OffloadKey) {manager : CPUOffloadingManager P}
    {blockIds : List Nat} (tracked : Tracked manager.policy) (counted : Counted manager)
    (loaded : manager.prepareLoad keys = .ok (blockIds, after)) : Counted after := by
  induction keys generalizing manager blockIds with
  | nil =>
      cases loaded
      exact counted
  | cons key rest ih =>
      obtain ⟨⟨blockId, middle⟩, pinned, loaded⟩ := bind_eq_ok.mp loaded
      obtain ⟨⟨otherIds, last⟩, loaded, done⟩ := bind_eq_ok.mp loaded
      cases done
      obtain ⟨_, performed, _⟩ := pin_block_performed pinned
      exact ih (tracked_moves tracked performed.policy) (pin_block_counted tracked counted pinned)
        loaded

theorem unpin_block_counted {key : OffloadKey} (tracked : Tracked manager.policy)
    (counted : Counted manager) (unpinned : manager.unpinBlock key = .ok after) :
    Counted after := by
  obtain ⟨_, performed, _⟩ := unpin_block_performed unpinned
  have trackedAfter := tracked_moves tracked performed.policy
  unfold CPUOffloadingManager.unpinBlock at unpinned
  cases stored : manager.get key with
  | none => simp [stored] at unpinned
  | some block =>
      simp only [stored] at unpinned
      obtain ⟨_, positive, unpinned⟩ := bind_eq_ok.mp unpinned
      have held := py_assert_eq_ok.mp positive
      have busy : block.refCnt ≠ 0 := by omega
      by_cases last : block.refCnt - 1 = 0
      · simp only [last, if_true] at unpinned
        cases unpinned
        apply counted_update tracked trackedAfter counted
          (LawfulCachePolicy.get_release (lawful tracked) stored)
        rw [stored]
        simp [idleOne, busy]
      · simp only [last, if_false] at unpinned
        cases unpinned
        apply counted_update tracked trackedAfter counted
          (LawfulCachePolicy.get_recount (lawful tracked) stored)
        rw [stored]
        simp [idleOne, busy, last]

theorem complete_load_counted (keys : List OffloadKey) {manager : CPUOffloadingManager P}
    (tracked : Tracked manager.policy) (counted : Counted manager)
    (completed : manager.completeLoad keys = .ok after) : Counted after := by
  induction keys generalizing manager with
  | nil =>
      cases completed
      exact counted
  | cons key rest ih =>
      obtain ⟨middle, unpinned, completed⟩ := bind_eq_ok.mp completed
      obtain ⟨_, performed, _⟩ := unpin_block_performed unpinned
      exact ih (tracked_moves tracked performed.policy)
        (unpin_block_counted tracked counted unpinned) completed

theorem publish_block_counted {key : OffloadKey} (tracked : Tracked manager.policy)
    (counted : Counted manager) (published : manager.publishBlock key = some after) :
    Counted after := by
  have trackedAfter := tracked_moves tracked (publish_block_performed published).policy
  unfold CPUOffloadingManager.publishBlock at published
  cases stored : manager.get key with
  | none => simp [stored] at published
  | some block =>
      simp only [stored] at published
      split at published
      · cases published
      · rename_i pending
        cases published
        rw [ready_iff] at pending
        have busy : block.refCnt ≠ 0 := by omega
        apply counted_update tracked trackedAfter counted
          (LawfulCachePolicy.get_release (lawful tracked) stored)
        rw [stored]
        simp [idleOne, busy]

theorem publish_blocks_counted (keys : List OffloadKey) {manager : CPUOffloadingManager P}
    (tracked : Tracked manager.policy) (counted : Counted manager) :
    Counted (manager.publishBlocks keys).2 := by
  induction keys generalizing manager with
  | nil => exact counted
  | cons key rest ih =>
      unfold CPUOffloadingManager.publishBlocks
      cases published : manager.publishBlock key with
      | none => exact ih tracked counted
      | some middle =>
          exact ih (tracked_moves tracked (publish_block_performed published).policy)
            (publish_block_counted tracked counted published)

theorem discard_block_counted {key : OffloadKey} (tracked : Tracked manager.policy)
    (counted : Counted manager) (discarded : manager.discardBlock key = .ok after) :
    Counted after := by
  obtain ⟨_, performed, _⟩ := discard_block_performed discarded
  have trackedAfter := tracked_moves tracked performed.policy
  unfold CPUOffloadingManager.discardBlock at discarded
  cases stored : manager.get key with
  | none =>
      simp only [stored] at discarded
      cases discarded
      exact counted
  | some block =>
      simp only [stored] at discarded
      split at discarded
      · cases discarded
        exact counted
      · rename_i pending
        obtain ⟨policy, removed, done⟩ := bind_eq_ok.mp discarded
        cases done
        rw [ready_iff] at pending
        have busy : block.refCnt ≠ 0 := by omega
        apply counted_update tracked trackedAfter counted (discarded_get tracked stored removed)
        rw [stored]
        simp [CPUOffloadingManager.freeBlock, idleOne, busy]

theorem discard_blocks_counted (keys : List OffloadKey) {manager : CPUOffloadingManager P}
    (tracked : Tracked manager.policy) (counted : Counted manager)
    (discarded : manager.discardBlocks keys = .ok after) : Counted after := by
  induction keys generalizing manager with
  | nil =>
      cases discarded
      exact counted
  | cons key rest ih =>
      obtain ⟨middle, first, later⟩ := bind_eq_ok.mp discarded
      obtain ⟨_, performed, _⟩ := discard_block_performed first
      exact ih (tracked_moves tracked performed.policy)
        (discard_block_counted tracked counted first) later

theorem complete_store_counted {keys : List OffloadKey} {success : Bool}
    (tracked : Tracked manager.policy) (counted : Counted manager)
    (completed : manager.completeStore keys success = .ok after) : Counted after := by
  unfold CPUOffloadingManager.completeStore at completed
  cases success with
  | false => exact discard_blocks_counted keys tracked counted completed
  | true =>
      have published := publish_blocks_counted keys tracked counted
      generalize manager.publishBlocks keys = result at published completed
      simp only [if_true] at completed
      split at completed
      · cases completed
        exact published
      · cases completed
        have same := same_pool_trans (clear_tombstones_same result.2 result.1)
          (emit_same (result.2.clearTombstones result.1) result.1 false)
        exact same_pool_counted same published

theorem touch_counted (tracked : Tracked manager.policy) (counted : Counted manager)
    (keys : List OffloadKey) : Counted (manager.touch keys) := by
  have same := total_congr idleOne (stored_set_covers (lawful tracked))
    (@stored_set_covers _ _ _ (manager.touch keys)
      (LawfulCachePolicy.inv_touch (lawful tracked) keys))
    (LawfulCachePolicy.get_touch (lawful tracked) keys)
  unfold Counted weigh at counted ⊢
  exact counted.trans same.symm

/-- Pending blocks do not count, whichever keys they are entered under. -/
theorem insert_blocks_counted (entries : List (OffloadKey × Nat)) {policy : P}
    (tracked : Tracked policy)
    (unready : ∀ entry ∈ entries, ∀ block, CachePolicy.get policy entry.1 = some block →
      block.refCnt < 0) :
    let inserted := (entries.map fun entry => (entry.1, BlockStatus.new entry.2)).foldl
      (fun policy entry => CachePolicy.insert policy entry.1 entry.2) policy
    total (CachePolicy.storedKeys inserted).toFinset (CachePolicy.get inserted) idleOne =
      total (CachePolicy.storedKeys policy).toFinset (CachePolicy.get policy) idleOne := by
  induction entries generalizing policy with
  | nil => rfl
  | cons entry rest ih =>
      have fresh := unready entry List.mem_cons_self
      have trackedNext := tracked_moved tracked (.reserve entry.2 fresh)
      have getNext := get_reserve entry.2 tracked fresh
      have later := ih trackedNext (by
        intro other member block found
        rw [getNext] at found
        split at found
        · cases found
          simp
        · exact unready other (List.mem_cons_of_mem _ member) block found)
      have covers : ∀ {policy : P}, Tracked policy →
          Covers (CachePolicy.storedKeys policy).toFinset (CachePolicy.get policy) := by
        intro policy tracked key present
        rw [List.mem_toFinset, LawfulCachePolicy.mem_stored (lawful tracked)]
        exact Option.isSome_iff_ne_none.mpr present
      have step := total_update idleOne (covers tracked) (covers trackedNext) entry.1 _ getNext
      have before : (CachePolicy.get policy entry.1).elim 0 idleOne = 0 := by
        cases stored : CachePolicy.get policy entry.1 with
        | none => rfl
        | some block =>
            have pending := fresh block stored
            simp [idleOne, pending.ne]
      rw [before] at step
      exact later.trans (by simpa [idleOne] using step)

theorem victims_counted {count : Nat} {guarded : List OffloadKey} {victims : Victims} {policy : P}
    (tracked : Tracked manager.policy) (counted : Counted manager)
    (evicted : CachePolicy.evict manager.policy count guarded = .ok (some (victims, policy))) :
    Counted (manager.takeVictims policy victims) := by
  have outcome := evicted_outcome tracked evicted
  have removed := total_remove idleOne (stored_set_covers (lawful tracked))
    (@stored_set_covers _ _ _ (manager.takeVictims policy victims) (by
      rw [CPUOffloadingManager.takeVictims, free_victims_spec]
      exact lawful (tracked_moved tracked (.evict evicted))))
    victims outcome.distinct (fun victim member => (outcome.idle victim member).1) (by
      rw [CPUOffloadingManager.takeVictims, free_victims_spec]
      exact outcome.get_after)
  have ones : (victims.map fun victim => idleOne victim.2).sum = (victims.length : Int) := by
    rw [List.map_congr_left (g := fun _ => (1 : Int))]
    · simp
    · intro victim member
      simp [idleOne, (outcome.idle victim member).2]
  rw [ones] at removed
  unfold Counted weigh at counted ⊢
  rw [← eq_sub_iff_add_eq] at removed
  rw [removed, ← counted, CPUOffloadingManager.takeVictims, free_victims_spec]

theorem make_room_counted {keys : List OffloadKey} {numToStore : Nat}
    {evicted : Option (List OffloadKey)} (tracked : Tracked manager.policy)
    (counted : Counted manager)
    (made : manager.makeRoom keys numToStore = .ok (evicted, after)) : Counted after := by
  unfold CPUOffloadingManager.makeRoom at made
  simp only at made
  split at made
  · have same := cap_eviction_same manager (numToStore - manager.getNumFreeBlocks)
    generalize manager.capEviction (numToStore - manager.getNumFreeBlocks) = capping
      at made same
    have capped := same_pool_counted same counted
    have cappedTracked : Tracked capping.2.policy := by
      rw [same.policy]
      exact tracked
    split at made
    · cases made
      exact capped
    · obtain ⟨result, evict, made⟩ := bind_eq_ok.mp made
      cases result with
      | none =>
          cases made
          exact capped
      | some result =>
          obtain ⟨_, _, done⟩ := bind_eq_ok.mp made
          cases done
          exact victims_counted cappedTracked capped evict
  · cases made
    exact counted

theorem reserve_blocks_counted {keysToStore toEvict : List OffloadKey}
    {output : PrepareStoreOutput} (tracked : Tracked manager.policy) (counted : Counted manager)
    (absent : ∀ key ∈ keysToStore, manager.get key = none)
    (reserved : manager.reserveBlocks keysToStore toEvict = .ok (output, after)) :
    Counted after := by
  obtain ⟨⟨blocks, slotted⟩, allocated, reserved⟩ := bind_eq_ok.mp reserved
  obtain ⟨_, _, done⟩ := bind_eq_ok.mp reserved
  cases done
  obtain ⟨_, _, done⟩ := bind_eq_ok.mp allocated
  cases done
  have zip_eq : ∀ ids : List Nat, keysToStore.zip (ids.map BlockStatus.new) =
      (keysToStore.zip ids).map fun entry => (entry.1, BlockStatus.new entry.2) := by
    intro ids
    rw [List.zip_map_right]
    rfl
  have same := fun ids => insert_blocks_counted (keysToStore.zip ids) tracked (by
    intro entry member block found
    have none := absent entry.1 (List.of_mem_zip member).1
    cases none.symm.trans found)
  unfold Counted weigh at counted ⊢
  simp only [CPUOffloadingManager.addWritePending, CPUOffloadingManager.insertBlocks,
    CPUOffloadingManager.withSlots, zip_eq]
  exact counted.trans (same _).symm

/-- Making room enters no key. -/
theorem make_room_absent {keys : List OffloadKey} {numToStore : Nat}
    {evicted : Option (List OffloadKey)} (tracked : Tracked manager.policy)
    (made : manager.makeRoom keys numToStore = .ok (evicted, after)) :
    Tracked after.policy ∧ ∀ key, manager.get key = none → after.get key = none := by
  have alone : Performed manager [] [] after →
      Tracked after.policy ∧ ∀ key, manager.get key = none → after.get key = none := by
    intro performed
    have same : after.policy = manager.policy := performed.policy
    unfold CPUOffloadingManager.get
    rw [same]
    exact ⟨tracked, fun _ absent => absent⟩
  rcases make_room_performed made with ⟨_, performed⟩ | ⟨_, _, rfl⟩ | ⟨victims, _, _, performed⟩
  · exact alone performed
  · exact alone (performed_refl _)
  · have outcome := performed_evicted tracked performed
    refine ⟨tracked_moves tracked performed.policy, ?_⟩
    intro key absent
    refine (outcome.get_after key).trans ?_
    split
    · rfl
    · exact absent

theorem prepare_store_counted {keys : List OffloadKey} {bypassThreshold : Bool}
    {output : Option PrepareStoreOutput} (tracked : Tracked manager.policy)
    (counted : Counted manager)
    (prepared : manager.prepareStore keys bypassThreshold = .ok (output, after)) :
    Counted after := by
  by_cases present : missingKeys manager keys bypassThreshold = []
  · rw [StoreAdmission.prepare_store_present present] at prepared
    cases prepared
    exact same_pool_counted (gate_keys_spec manager keys bypassThreshold).1 counted
  · rw [StoreAdmission.prepare_store_eq present] at prepared
    have same := StoreAdmission.same_store_pool
      (StoreAdmission.entered_same_store manager keys bypassThreshold)
    generalize StoreAdmission.entered manager keys bypassThreshold = entered at prepared same
    have enteredTracked : Tracked entered.policy := by
      rw [same.policy]
      exact tracked
    have enteredCounted := same_pool_counted same counted
    obtain ⟨⟨evicted, roomy⟩, made, prepared⟩ := bind_eq_ok.mp prepared
    have roomyCounted := make_room_counted enteredTracked enteredCounted made
    obtain ⟨roomyTracked, stillAbsent⟩ := make_room_absent enteredTracked made
    cases evicted with
    | none =>
        cases prepared
        exact roomyCounted
    | some toEvict =>
        obtain ⟨⟨stored, last⟩, reserved, done⟩ := bind_eq_ok.mp prepared
        cases done
        have noted := note_evicted_same roomy toEvict
        have notedTracked : Tracked (roomy.noteEvicted toEvict).policy := by
          rw [noted.policy]
          exact roomyTracked
        apply reserve_blocks_counted notedTracked (same_pool_counted noted roomyCounted) _ reserved
        intro key member
        rw [same_pool_get noted]
        apply stillAbsent
        rw [same_pool_get same]
        exact Option.isNone_iff_eq_none.mp (List.mem_filter.mp member).2

omit [TrackedPolicy P] in
theorem reset_cache_counted (manager : CPUOffloadingManager P) : Counted manager.resetCache :=
  (reset_cache_spec manager).1.evictable

theorem apply_counted {history last : CpuHistory P} {event : CpuEvent}
    (tracked : Tracked history.manager.policy) (counted : Counted history.manager)
    (applied : history.apply event = .ok last) : Counted last.manager := by
  cases event with
  | lookup key =>
      obtain ⟨⟨result, manager⟩, looked, done⟩ := bind_eq_ok.mp applied
      cases done
      obtain ⟨middle, countOk, done⟩ := bind_eq_ok.mp looked
      cases done
      exact same_pool_counted (count_lookup_same countOk) counted
  | touch keys =>
      cases applied
      exact touch_counted tracked counted keys
  | prepareStore keys bypassThreshold =>
      obtain ⟨⟨output, manager⟩, prepared, done⟩ := bind_eq_ok.mp applied
      cases done
      exact prepare_store_counted tracked counted prepared
  | completeStore keys success =>
      obtain ⟨manager, completed, done⟩ := bind_eq_ok.mp applied
      cases done
      exact complete_store_counted tracked counted completed
  | prepareLoad keys =>
      obtain ⟨⟨blockIds, manager⟩, loaded, done⟩ := bind_eq_ok.mp applied
      cases done
      exact prepare_load_counted keys tracked counted loaded
  | completeLoad keys =>
      obtain ⟨manager, completed, done⟩ := bind_eq_ok.mp applied
      cases done
      exact complete_load_counted keys tracked counted completed
  | resetCache =>
      cases applied
      exact reset_cache_counted history.manager
  | takeEvents =>
      cases applied
      exact same_pool_counted (take_events_same history.manager) counted

theorem reached_counted {params : CpuManagerParams} {policy : P} {history : CpuHistory P}
    (tracked : Tracked policy) (empty : ∀ key, CachePolicy.get policy key = none)
    (reached : CpuHistory.Reached params policy history) : Counted history.manager := by
  have start : Counted (CpuHistory.start params policy).manager :=
    (new_spec params policy (lawful tracked) empty).1.evictable
  have both := @reaches_invariant _ _ _ _ _
    (fun history : CpuHistory P => Tracked history.manager.policy ∧ Counted history.manager) _ _
    (fun _ _ _ inv _ applied =>
      ⟨apply_tracked inv.1 applied, apply_counted inv.1 inv.2 applied⟩)
    ⟨tracked, start⟩ reached
  exact both.2

/-- The idle stored keys outside a list. -/
def idleOutside (manager : CPUOffloadingManager P) (keys : List OffloadKey) : List OffloadKey :=
  (CachePolicy.storedKeys manager.policy).filter fun key =>
    CpuHistory.idle manager key ∧ key ∉ keys

omit [TrackedPolicy P] in
theorem mem_idle_outside (inv : LawfulCachePolicy.Inv manager.policy) {keys : List OffloadKey}
    {key : OffloadKey} : key ∈ idleOutside manager keys ↔
      key ∉ keys ∧ ∃ block, manager.get key = some block ∧ block.refCnt = 0 := by
  have stored := LawfulCachePolicy.mem_stored inv key
  unfold idleOutside CpuHistory.idle CPUOffloadingManager.get
  rw [List.mem_filter, stored]
  cases found : CachePolicy.get manager.policy key with
  | none => simp
  | some block => simp [and_comm]

omit [TrackedPolicy P] in
/-- The counter counts the idle stored keys. -/
theorem counted_eq_idle (inv : LawfulCachePolicy.Inv manager.policy) (counted : Counted manager) :
    manager.numEvictableCacheBlocks = (idleOutside manager []).length := by
  have nodup := LawfulCachePolicy.stored_nodup inv
  have filtered : (idleOutside manager []).length =
      ((storedSet manager).filter fun key =>
        (manager.get key).any fun block => block.refCnt = 0).card := by
    unfold idleOutside
    rw [← List.toFinset_card_of_nodup (nodup.filter _), List.toFinset_filter]
    congr 1
    apply Finset.filter_congr
    simp [CpuHistory.idle]
  unfold Counted weigh at counted
  rw [counted, filtered, card_filter_eq_total, total, total, Nat.cast_sum]
  apply Finset.sum_congr rfl
  intro key _
  cases manager.get key with
  | none => rfl
  | some block =>
      simp only [Option.elim_some, idleOne, decide_eq_true_eq]
      split <;> rfl

end KvOffload.EvictableCounts
