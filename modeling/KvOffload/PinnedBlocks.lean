import KvOffload.EvictableCounts
import KvOffload.TieringSlots

/-!
# Pins of the primary blocks

Loads and cascades pin a block until they release it. What an operation does to the pins
is the same whichever keys it is called with, also when they are not distinct: only
`prepare_load` adds pins, only `complete_load` takes them away, and with enough pins it
returns.
-/

namespace KvOffload.PinnedBlocks

open KvOffload KvOffload.Base KvOffload.PolicyInterface KvOffload.CpuManager
open KvOffload.CpuPool KvOffload.CpuManagerSpec KvOffload.PolicyMoves
open KvOffload.CpuManagerMoves KvOffload.EvictableCounts KvOffload.TieringSlots

set_option autoImplicit false

section Pins

variable {P : Type} [CachePolicy P] {primary after : CPUOffloadingManager P}

/-- How often a key can be released before its block is idle. -/
def pins (primary : CPUOffloadingManager P) (key : OffloadKey) : Nat :=
  (primary.get key).elim 0 fun block => block.refCnt.toNat

theorem pins_congr {key : OffloadKey} (same : after.get key = primary.get key) :
    pins after key = pins primary key := by
  rw [pins, same]
  rfl

theorem pins_of_found {key : OffloadKey} {block : BlockStatus}
    (found : primary.get key = some block) : pins primary key = block.refCnt.toNat := by
  rw [pins, found]
  rfl

theorem pinned_block {key : OffloadKey} (pinned : 0 < pins primary key) :
    ∃ block, primary.get key = some block ∧ 0 < block.refCnt := by
  unfold pins at pinned
  cases found : primary.get key with
  | none => simp [found] at pinned
  | some block =>
      rw [found, Option.elim_some] at pinned
      exact ⟨block, rfl, by omega⟩

end Pins

section Steady

variable {P : Type} [CachePolicy P] [LawfulCachePolicy P] [TrackedPolicy P]

open TrackedPolicy

/-- What holds of a CPU manager whatever keys it is called with. -/
structure Steady (primary : CPUOffloadingManager P) : Prop where
  tracked : Tracked primary.policy
  counted : Counted primary

variable {manager after : CPUOffloadingManager P}

theorem steady_of_same (steady : Steady manager) (same : SamePool manager after) :
    Steady after ∧ ∀ key, after.get key = manager.get key :=
  ⟨⟨same.policy ▸ steady.tracked, same_pool_counted same steady.counted⟩,
    congrFun (same_pool_get same)⟩

theorem touch_steady (steady : Steady manager) (keys : List OffloadKey) :
    Steady (manager.touch keys) ∧ ∀ key, (manager.touch keys).get key = manager.get key :=
  ⟨⟨tracked_moves steady.tracked (touch_performed keys).policy,
      touch_counted steady.tracked steady.counted keys⟩,
    LawfulCachePolicy.get_touch (lawful steady.tracked) keys⟩

theorem lookup_steady {key : OffloadKey} {result : LookupResult} (steady : Steady manager)
    (looked : manager.lookup key = .ok (result, after)) :
    Steady after ∧ ∀ key, after.get key = manager.get key := by
  obtain ⟨middle, counted, done⟩ := bind_eq_ok.mp looked
  cases done
  exact steady_of_same steady (count_lookup_same counted)

theorem reset_steady (manager : CPUOffloadingManager P) : Steady manager.resetCache := by
  refine ⟨?_, reset_cache_counted manager⟩
  rw [(CpuHistories.reset_cache_fields manager).1]
  exact tracked_clear _

theorem new_steady (params : CpuManagerParams) {policy : P} (tracked : Tracked policy)
    (empty : ∀ key, CachePolicy.get policy key = none) :
    Steady (CPUOffloadingManager.new params policy) :=
  ⟨tracked, (new_spec params policy (lawful tracked) empty).1.evictable⟩

/-- An idle block is counted, so it can be taken from the evictable ones. -/
theorem idle_counted (steady : Steady manager) {key : OffloadKey} {block : BlockStatus}
    (stored : manager.get key = some block) (idle : block.refCnt = 0) :
    1 ≤ manager.numEvictableCacheBlocks := by
  have member : key ∈ idleOutside manager [] :=
    (mem_idle_outside (lawful steady.tracked)).mpr ⟨List.not_mem_nil, block, stored, idle⟩
  have positive := List.length_pos_of_mem member
  rw [counted_eq_idle (lawful steady.tracked) steady.counted]
  omega

section Loads

theorem pin_block_spec {key : OffloadKey} {blockId : Nat} (steady : Steady manager)
    (pinned : manager.pinBlock key = .ok (blockId, after)) :
    Steady after ∧ ∃ block, manager.get key = some block ∧ 0 ≤ block.refCnt ∧
      ∀ other, after.get other =
        if other = key then some (block.withRefCnt (block.refCnt + 1)) else manager.get other := by
  obtain ⟨_, performed, _⟩ := pin_block_performed pinned
  refine ⟨⟨tracked_moves steady.tracked performed.policy,
    pin_block_counted steady.tracked steady.counted pinned⟩, ?_⟩
  unfold CPUOffloadingManager.pinBlock at pinned
  cases stored : manager.get key with
  | none => simp [stored] at pinned
  | some block =>
      simp only [stored] at pinned
      obtain ⟨_, ready, pinned⟩ := bind_eq_ok.mp pinned
      refine ⟨block, rfl, ready_iff.mp (py_assert_eq_ok.mp ready), ?_⟩
      by_cases idle : block.refCnt = 0
      · simp only [idle, if_true] at pinned
        obtain ⟨policy, marked, pinned⟩ := bind_eq_ok.mp pinned
        obtain ⟨_, _, done⟩ := bind_eq_ok.mp pinned
        cases done
        rw [idle]
        exact pinned_get steady.tracked stored idle marked
      · simp only [idle, if_false] at pinned
        cases pinned
        exact LawfulCachePolicy.get_recount (lawful steady.tracked) stored

theorem pin_block_returns {key : OffloadKey} {block : BlockStatus} (steady : Steady manager)
    (stored : manager.get key = some block) (ready : 0 ≤ block.refCnt) :
    ∃ after, manager.pinBlock key = .ok (block.blockId, after) := by
  unfold CPUOffloadingManager.pinBlock
  simp only [stored, py_assert_of (ready_iff.mpr ready), ok_bind]
  by_cases idle : block.refCnt = 0
  · obtain ⟨held, marked, _⟩ := LawfulCachePolicy.pin_ok (lawful steady.tracked) stored idle
    have counted := idle_counted steady stored idle
    simp only [idle, if_true, marked, ok_bind,
      py_assert_of (show (0 : Int) ≤ manager.numEvictableCacheBlocks - 1 by omega)]
    exact ⟨_, rfl⟩
  · simp only [idle, if_false]
    exact ⟨_, rfl⟩

omit [LawfulCachePolicy P] [TrackedPolicy P] in
theorem pins_after_pin {key other : OffloadKey} {block : BlockStatus}
    (stored : manager.get key = some block) (ready : 0 ≤ block.refCnt)
    (getAfter : ∀ other, after.get other =
      if other = key then some (block.withRefCnt (block.refCnt + 1)) else manager.get other) :
    pins after other = pins manager other + [key].count other := by
  by_cases same : other = key
  · subst same
    rw [pins_of_found (by rw [getAfter, if_pos rfl]), pins_of_found stored, with_ref_cnt_ref_cnt,
      List.count_singleton_self]
    omega
  · rw [List.count_eq_zero_of_not_mem (by simpa using same), Nat.add_zero]
    exact pins_congr (by rw [getAfter, if_neg same])

/-- A load pins each key once for every time it is named. -/
theorem prepare_load_spec (keys : List OffloadKey) {manager : CPUOffloadingManager P}
    {blockIds : List Nat} (steady : Steady manager)
    (loaded : manager.prepareLoad keys = .ok (blockIds, after)) :
    Steady after ∧ ∀ key, pins after key = pins manager key + keys.count key := by
  induction keys generalizing manager blockIds with
  | nil =>
      cases loaded
      exact ⟨steady, fun _ => rfl⟩
  | cons first rest ih =>
      obtain ⟨⟨blockId, middle⟩, pinned, loaded⟩ := bind_eq_ok.mp loaded
      obtain ⟨⟨otherIds, last⟩, loaded, done⟩ := bind_eq_ok.mp loaded
      cases done
      obtain ⟨middleSteady, block, stored, ready, getMiddle⟩ := pin_block_spec steady pinned
      obtain ⟨lastSteady, later⟩ := ih middleSteady loaded
      refine ⟨lastSteady, fun key => ?_⟩
      have one := List.count_cons (a := key) (b := first) (l := rest)
      rw [later, pins_after_pin stored ready getMiddle, List.count_singleton]
      omega

/-- A load of filled keys returns, and they stay filled. -/
theorem prepare_load_returns (keys : List OffloadKey) {manager : CPUOffloadingManager P}
    (steady : Steady manager) (ready : ∀ key ∈ keys, Ready manager.policy key) :
    ∃ blockIds after, manager.prepareLoad keys = .ok (blockIds, after) ∧
      ∀ key, Ready manager.policy key → Ready after.policy key := by
  induction keys generalizing manager with
  | nil => exact ⟨[], manager, rfl, fun _ isReady => isReady⟩
  | cons first rest ih =>
      obtain ⟨block, stored, filled⟩ := ready first List.mem_cons_self
      obtain ⟨middle, pinned⟩ := pin_block_returns steady stored filled
      obtain ⟨middleSteady, _, _, _, getMiddle⟩ := pin_block_spec steady pinned
      obtain ⟨_, performed, kind⟩ := pin_block_performed pinned
      have kept : ∀ key, Ready manager.policy key → Ready middle.policy key := by
        intro key isReady
        obtain ⟨_, moved, rfl⟩ := performed.policy
        rw [ready_moved steady.tracked moved]
        rcases kind with rfl | rfl
        · exact isReady
        · exact isReady
      obtain ⟨blockIds, last, loaded, later⟩ := ih middleSteady fun key member =>
        kept key (ready key (List.mem_cons_of_mem _ member))
      refine ⟨block.blockId :: blockIds, last, ?_, fun key isReady => later key (kept key isReady)⟩
      rw [CPUOffloadingManager.prepareLoad, pinned, ok_bind]
      dsimp only
      rw [loaded, ok_bind]

theorem unpin_block_spec {key : OffloadKey} (steady : Steady manager)
    (unpinned : manager.unpinBlock key = .ok after) :
    Steady after ∧ ∃ block, manager.get key = some block ∧ 0 < block.refCnt ∧
      ∀ other, after.get other =
        if other = key then some (block.withRefCnt (block.refCnt - 1)) else manager.get other := by
  obtain ⟨_, performed, _⟩ := unpin_block_performed unpinned
  refine ⟨⟨tracked_moves steady.tracked performed.policy,
    unpin_block_counted steady.tracked steady.counted unpinned⟩, ?_⟩
  obtain ⟨block, stored, held⟩ := unpin_block_held unpinned
  refine ⟨block, stored, held, ?_⟩
  unfold CPUOffloadingManager.unpinBlock at unpinned
  simp only [stored, py_assert_of held, ok_bind] at unpinned
  by_cases last : block.refCnt - 1 = 0
  · simp only [last, if_true] at unpinned
    cases unpinned
    rw [last]
    exact LawfulCachePolicy.get_release (lawful steady.tracked) stored
  · simp only [last, if_false] at unpinned
    cases unpinned
    exact LawfulCachePolicy.get_recount (lawful steady.tracked) stored

omit [LawfulCachePolicy P] [TrackedPolicy P] in
theorem unpin_block_returns {key : OffloadKey} (pinned : 0 < pins manager key) :
    ∃ after, manager.unpinBlock key = .ok after := by
  obtain ⟨block, stored, held⟩ := pinned_block pinned
  unfold CPUOffloadingManager.unpinBlock
  simp only [stored, py_assert_of held, ok_bind]
  split
  · exact ⟨_, rfl⟩
  · exact ⟨_, rfl⟩

omit [LawfulCachePolicy P] [TrackedPolicy P] in
theorem pins_after_unpin {key : OffloadKey} {block : BlockStatus}
    (stored : manager.get key = some block) (held : 0 < block.refCnt)
    (getAfter : ∀ other, after.get other =
      if other = key then some (block.withRefCnt (block.refCnt - 1)) else manager.get other)
    (other : OffloadKey) :
    pins after other + [key].count other = pins manager other := by
  by_cases same : other = key
  · subst same
    rw [pins_of_found (by rw [getAfter, if_pos rfl]), pins_of_found stored, with_ref_cnt_ref_cnt,
      List.count_singleton_self]
    omega
  · rw [List.count_eq_zero_of_not_mem (by simpa using same), Nat.add_zero]
    exact pins_congr (by rw [getAfter, if_neg same])

/-- Releasing takes the pins away again. -/
theorem complete_load_spec (keys : List OffloadKey) {manager : CPUOffloadingManager P}
    (steady : Steady manager) (completed : manager.completeLoad keys = .ok after) :
    Steady after ∧ ∀ key, pins after key + keys.count key = pins manager key := by
  induction keys generalizing manager with
  | nil =>
      cases completed
      exact ⟨steady, fun _ => rfl⟩
  | cons first rest ih =>
      obtain ⟨middle, unpinned, completed⟩ := bind_eq_ok.mp completed
      obtain ⟨middleSteady, block, stored, held, getMiddle⟩ := unpin_block_spec steady unpinned
      obtain ⟨lastSteady, later⟩ := ih middleSteady completed
      refine ⟨lastSteady, fun key => ?_⟩
      have one := List.count_cons (a := key) (b := first) (l := rest)
      have here := pins_after_unpin stored held getMiddle key
      have rests := later key
      rw [List.count_singleton] at here
      omega

/-- Blocks with enough pins can be released. -/
theorem complete_load_returns (keys : List OffloadKey) {manager : CPUOffloadingManager P}
    (steady : Steady manager) (enough : ∀ key ∈ keys, keys.count key ≤ pins manager key) :
    ∃ after, manager.completeLoad keys = .ok after := by
  induction keys generalizing manager with
  | nil => exact ⟨manager, rfl⟩
  | cons first rest ih =>
      have positive : 0 < pins manager first :=
        (List.count_pos_iff.mpr List.mem_cons_self).trans_le (enough first List.mem_cons_self)
      obtain ⟨middle, unpinned⟩ := unpin_block_returns positive
      obtain ⟨middleSteady, block, stored, held, getMiddle⟩ := unpin_block_spec steady unpinned
      obtain ⟨last, completed⟩ := ih middleSteady (by
        intro key member
        have here := pins_after_unpin stored held getMiddle key
        have whole := enough key (List.mem_cons_of_mem _ member)
        rw [List.count_singleton] at here
        rw [List.count_cons] at whole
        omega)
      exact ⟨last, by rw [CPUOffloadingManager.completeLoad, unpinned, ok_bind, completed]⟩

end Loads

section Stores

/-- Publishing, dropping and entering blocks leaves the pins alone, and only idle blocks are
evicted. -/
theorem store_move_pins {policy last : P} {move : Move} (tracked : Tracked policy)
    (moved : Moved policy move last)
    (kind : (∃ key, move = .reserve key) ∨ (∃ key, move = .discard key) ∨
      ∃ count guarded victims, move = .evict count guarded victims) (key : OffloadKey) :
    ((CachePolicy.get last key).elim 0 fun block => block.refCnt.toNat) =
      (CachePolicy.get policy key).elim 0 fun block => block.refCnt.toNat := by
  have unpinned : ∀ {update : Option BlockStatus} {changed : OffloadKey},
      (∀ block, CachePolicy.get policy changed = some block → block.refCnt ≤ 0) →
      (∀ block, update = some block → block.refCnt ≤ 0) →
      (∀ other, CachePolicy.get last other =
        if other = changed then update else CachePolicy.get policy other) →
      ((CachePolicy.get last key).elim 0 fun block => block.refCnt.toNat) =
        (CachePolicy.get policy key).elim 0 fun block => block.refCnt.toNat := by
    intro update changed before later getAfter
    have none : ∀ found : Option BlockStatus, (∀ block, found = some block → block.refCnt ≤ 0) →
        (found.elim 0 fun block => block.refCnt.toNat) = 0 := by
      intro found low
      cases found with
      | none => rfl
      | some block => exact Int.toNat_eq_zero.mpr (low block rfl)
    rw [getAfter]
    split
    · rename_i same
      rw [same, none _ before, none _ later]
    · rfl
  cases moved with
  | @reserve reserved blockId unready =>
      apply unpinned (fun block found => (unready block found).le) _
        (get_reserve blockId tracked unready)
      rintro block made
      cases made
      simp
  | @discard _ discarded block stored pending removed =>
      apply unpinned _ (fun _ absent => by cases absent) (discarded_get tracked stored removed)
      intro other found
      cases stored.symm.trans found
      exact pending.le
  | evict evicted =>
      have outcome := evicted_outcome tracked evicted
      rw [outcome.get_after]
      split
      · rename_i victim
        obtain ⟨⟨_, block⟩, member, rfl⟩ := List.mem_map.mp victim
        obtain ⟨stored, idle⟩ := outcome.idle _ member
        dsimp only at stored idle
        rw [stored, Option.elim_some, idle]
        rfl
      · rfl
  | _ => simp at kind

theorem store_moves_pins {moves : List Move} {policy last : P} (tracked : Tracked policy)
    (moved : Moves policy moves last)
    (kind : ∀ move ∈ moves, (∃ key, move = .reserve key) ∨ (∃ key, move = .discard key) ∨
      ∃ count guarded victims, move = .evict count guarded victims) (key : OffloadKey) :
    ((CachePolicy.get last key).elim 0 fun block => block.refCnt.toNat) =
      (CachePolicy.get policy key).elim 0 fun block => block.refCnt.toNat := by
  induction moves generalizing policy with
  | nil =>
      obtain rfl := moved
      rfl
  | cons move rest ih =>
      obtain ⟨middle, first, later⟩ := moved
      exact (ih (tracked_moved tracked first) later fun other member =>
        kind other (List.mem_cons_of_mem _ member)).trans
          (store_move_pins tracked first (kind move List.mem_cons_self) key)

theorem prepare_store_steady {keys : List OffloadKey} {bypassThreshold : Bool}
    {output : Option PrepareStoreOutput} (steady : Steady manager)
    (prepared : manager.prepareStore keys bypassThreshold = .ok (output, after)) :
    Steady after ∧ ∀ key, pins after key = pins manager key := by
  have performed : ∃ moves events, Performed manager moves events after ∧ ∀ move ∈ moves,
      (∃ key, move = .reserve key) ∨ (∃ key, move = .discard key) ∨
        ∃ count guarded victims, move = .evict count guarded victims := by
    have reserves : ∀ missing : List OffloadKey, ∀ move ∈ missing.map Move.reserve,
        (∃ key, move = .reserve key) ∨ (∃ key, move = .discard key) ∨
          ∃ count guarded victims, move = .evict count guarded victims := by
      intro missing move member
      obtain ⟨key, _, rfl⟩ := List.mem_map.mp member
      exact .inl ⟨key, rfl⟩
    cases prepare_store_performed steady.tracked prepared with
    | refused performed => exact ⟨[], _, performed, by simp⟩
    | roomy _ _ _ performed => exact ⟨_, _, performed, reserves _⟩
    | evicting _ _ _ performed =>
        refine ⟨_, _, performed, fun move member => ?_⟩
        rcases List.mem_cons.mp member with rfl | later
        · exact .inr (.inr ⟨_, _, _, rfl⟩)
        · exact reserves _ move later
  obtain ⟨moves, events, performed, kind⟩ := performed
  exact ⟨⟨tracked_moves steady.tracked performed.policy,
    prepare_store_counted steady.tracked steady.counted prepared⟩,
    store_moves_pins steady.tracked performed.policy kind⟩

theorem discard_blocks_returns (keys : List OffloadKey) {manager : CPUOffloadingManager P}
    (steady : Steady manager) : ∃ after, manager.discardBlocks keys = .ok after := by
  induction keys generalizing manager with
  | nil => exact ⟨manager, rfl⟩
  | cons key rest ih =>
      have one : ∃ middle, manager.discardBlock key = .ok middle := by
        unfold CPUOffloadingManager.discardBlock
        cases stored : manager.get key with
        | none => exact ⟨manager, rfl⟩
        | some block =>
            dsimp only
            split
            · exact ⟨manager, rfl⟩
            · obtain ⟨policy, removed, _⟩ :=
                LawfulCachePolicy.remove_ok (lawful steady.tracked) stored
              exact ⟨_, by rw [removed, ok_bind]⟩
      obtain ⟨middle, discarded⟩ := one
      obtain ⟨_, performed, _⟩ := discard_block_performed discarded
      obtain ⟨last, later⟩ := ih ⟨tracked_moves steady.tracked performed.policy,
        discard_block_counted steady.tracked steady.counted discarded⟩
      exact ⟨last, by rw [CPUOffloadingManager.discardBlocks, discarded, ok_bind, later]⟩

theorem publish_block_spec {key : OffloadKey} (steady : Steady manager)
    (published : manager.publishBlock key = some after) :
    Steady after ∧ ∃ block, manager.get key = some block ∧ block.refCnt < 0 ∧
      ∀ other, after.get other =
        if other = key then some (block.withRefCnt 0) else manager.get other := by
  have moved := (publish_block_performed published).policy
  refine ⟨⟨tracked_moves steady.tracked moved,
    publish_block_counted steady.tracked steady.counted published⟩, ?_⟩
  unfold CPUOffloadingManager.publishBlock at published
  cases stored : manager.get key with
  | none => simp [stored] at published
  | some block =>
      simp only [stored] at published
      split at published
      · cases published
      · rename_i pending
        rw [ready_iff, not_le] at pending
        cases published
        exact ⟨block, rfl, pending,
          LawfulCachePolicy.get_release (lawful steady.tracked) stored⟩

omit [LawfulCachePolicy P] [TrackedPolicy P] in
/-- A stored key that is not published was filled before. -/
theorem not_published {key : OffloadKey} (published : manager.publishBlock key = none)
    (stored : (manager.get key).isSome = true) : Ready manager.policy key := by
  obtain ⟨block, found⟩ := Option.isSome_iff_exists.mp stored
  unfold CPUOffloadingManager.publishBlock at published
  simp only [found] at published
  split at published
  · rename_i ready
    exact ⟨block, found, ready_iff.mp ready⟩
  · cases published

/-- A stored key is filled once it is published. -/
theorem publish_blocks_steady (keys : List OffloadKey) {manager : CPUOffloadingManager P}
    (steady : Steady manager) :
    Steady (manager.publishBlocks keys).2 ∧
      (∀ key, pins (manager.publishBlocks keys).2 key = pins manager key) ∧
      ∀ key, (manager.get key).isSome = true → key ∈ keys ∨ Ready manager.policy key →
        Ready (manager.publishBlocks keys).2.policy key := by
  induction keys generalizing manager with
  | nil => exact ⟨steady, fun _ => rfl, fun key _ filled => filled.resolve_left List.not_mem_nil⟩
  | cons first rest ih =>
      unfold CPUOffloadingManager.publishBlocks
      cases published : manager.publishBlock first with
      | none =>
          obtain ⟨lastSteady, samePins, filled⟩ := ih steady
          refine ⟨lastSteady, samePins, fun key stored kind => filled key stored ?_⟩
          rcases kind with member | isReady
          · rcases List.mem_cons.mp member with rfl | later
            · exact .inr (not_published published stored)
            · exact .inl later
          · exact .inr isReady
      | some middle =>
          obtain ⟨middleSteady, block, found, pending, getMiddle⟩ :=
            publish_block_spec steady published
          obtain ⟨lastSteady, samePins, filled⟩ := ih middleSteady
          refine ⟨lastSteady, fun key => (samePins key).trans ?_, fun key stored kind => ?_⟩
          · by_cases same : key = first
            · subst same
              rw [pins_of_found ((getMiddle key).trans (if_pos rfl)), pins_of_found found,
                with_ref_cnt_ref_cnt, Int.toNat_eq_zero.mpr pending.le]
              rfl
            · exact pins_congr ((getMiddle key).trans (if_neg same))
          · by_cases same : key = first
            · subst same
              have here : middle.get key = some (block.withRefCnt 0) :=
                (getMiddle key).trans (if_pos rfl)
              exact filled key (by rw [here]; rfl) (.inr ⟨_, here, by simp⟩)
            · have kept : middle.get key = manager.get key :=
                (getMiddle key).trans (if_neg same)
              apply filled key (by rw [kept]; exact stored)
              rcases kind with member | ⟨other, isStored, ready⟩
              · exact .inl ((List.mem_cons.mp member).resolve_left same)
              · exact .inr ⟨other, kept.trans isStored, ready⟩

/-- A completion always returns; a successful one fills the keys that are stored. -/
theorem complete_store_returns (steady : Steady manager) (keys : List OffloadKey)
    (success : Bool) : ∃ after, manager.completeStore keys success = .ok after ∧ Steady after ∧
      (∀ key, pins after key = pins manager key) ∧
      (success = true → ∀ key ∈ keys, (manager.get key).isSome = true →
        Ready after.policy key) := by
  cases success with
  | true =>
      obtain ⟨published, samePins, filled⟩ := publish_blocks_steady keys steady
      unfold CPUOffloadingManager.completeStore
      generalize manager.publishBlocks keys = result at published samePins filled
      simp only [if_true]
      have ready : ∀ key ∈ keys, (manager.get key).isSome = true →
          Ready result.2.policy key := fun key member stored => filled key stored (.inl member)
      split
      · exact ⟨_, rfl, published, samePins, fun _ => ready⟩
      · have same := same_pool_trans (clear_tombstones_same result.2 result.1)
          (emit_same (result.2.clearTombstones result.1) result.1 false)
        obtain ⟨lastSteady, sameGet⟩ := steady_of_same published same
        refine ⟨_, rfl, lastSteady, fun key => (pins_congr (sameGet key)).trans (samePins key), ?_⟩
        intro _ key member stored
        obtain ⟨block, found, nonneg⟩ := ready key member stored
        exact ⟨block, (sameGet key).trans found, nonneg⟩
  | false =>
      obtain ⟨last, discarded⟩ := discard_blocks_returns keys steady
      have completed : manager.completeStore keys false = .ok last := discarded
      obtain ⟨moves, performed, kind⟩ := discard_blocks_performed keys discarded
      refine ⟨last, completed, ⟨tracked_moves steady.tracked performed.policy,
        discard_blocks_counted keys steady.tracked steady.counted discarded⟩,
        store_moves_pins steady.tracked performed.policy fun move member =>
          .inr (.inl (kind move member)), nofun⟩

end Stores

section Stored

/-- The same keys are stored. -/
def SameStored (manager after : CPUOffloadingManager P) : Prop :=
  ∀ key, (after.get key).isSome = (manager.get key).isSome

omit [LawfulCachePolicy P] [TrackedPolicy P] in
theorem same_stored_of_rebound {key : OffloadKey} {block rebound : BlockStatus}
    (stored : manager.get key = some block)
    (getAfter : ∀ other, after.get other = if other = key then some rebound else manager.get other) :
    SameStored manager after := by
  intro other
  rw [getAfter]
  split
  · rename_i same
    rw [same, stored]
    rfl
  · rfl

omit [LawfulCachePolicy P] [TrackedPolicy P] in
theorem same_stored_trans {first second third : CPUOffloadingManager P}
    (left : SameStored first second) (right : SameStored second third) : SameStored first third :=
  fun key => (right key).trans (left key)

theorem prepare_load_stored (keys : List OffloadKey) {manager : CPUOffloadingManager P}
    {blockIds : List Nat} (steady : Steady manager)
    (loaded : manager.prepareLoad keys = .ok (blockIds, after)) : SameStored manager after := by
  induction keys generalizing manager blockIds with
  | nil =>
      cases loaded
      exact fun _ => rfl
  | cons first rest ih =>
      obtain ⟨⟨blockId, middle⟩, pinned, loaded⟩ := bind_eq_ok.mp loaded
      obtain ⟨⟨otherIds, last⟩, loaded, done⟩ := bind_eq_ok.mp loaded
      cases done
      obtain ⟨middleSteady, block, stored, _, getMiddle⟩ := pin_block_spec steady pinned
      exact same_stored_trans (same_stored_of_rebound stored getMiddle) (ih middleSteady loaded)

theorem complete_load_stored (keys : List OffloadKey) {manager : CPUOffloadingManager P}
    (steady : Steady manager) (completed : manager.completeLoad keys = .ok after) :
    SameStored manager after := by
  induction keys generalizing manager with
  | nil =>
      cases completed
      exact fun _ => rfl
  | cons first rest ih =>
      obtain ⟨middle, unpinned, completed⟩ := bind_eq_ok.mp completed
      obtain ⟨middleSteady, block, stored, _, getMiddle⟩ := unpin_block_spec steady unpinned
      exact same_stored_trans (same_stored_of_rebound stored getMiddle) (ih middleSteady completed)

theorem publish_blocks_stored (keys : List OffloadKey) {manager : CPUOffloadingManager P}
    (steady : Steady manager) : SameStored manager (manager.publishBlocks keys).2 := by
  induction keys generalizing manager with
  | nil => exact fun _ => rfl
  | cons first rest ih =>
      unfold CPUOffloadingManager.publishBlocks
      cases published : manager.publishBlock first with
      | none => exact ih steady
      | some middle =>
          obtain ⟨middleSteady, block, found, _, getMiddle⟩ := publish_block_spec steady published
          exact same_stored_trans (same_stored_of_rebound found getMiddle) (ih middleSteady)

theorem complete_store_stored {keys : List OffloadKey} (steady : Steady manager)
    (completed : manager.completeStore keys true = .ok after) : SameStored manager after := by
  have stored := publish_blocks_stored keys steady
  have published := (publish_blocks_steady keys steady).1
  unfold CPUOffloadingManager.completeStore at completed
  generalize manager.publishBlocks keys = result at stored published completed
  simp only [if_true] at completed
  split at completed
  · cases completed
    exact stored
  · cases completed
    have same := same_pool_trans (clear_tombstones_same result.2 result.1)
      (emit_same (result.2.clearTombstones result.1) result.1 false)
    refine same_stored_trans stored fun key => ?_
    rw [(steady_of_same published same).2 key]

end Stored

end Steady

end KvOffload.PinnedBlocks
