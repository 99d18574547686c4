import KvOffload.CpuManagerSpec
import KvOffload.PolicyMoves

/-!
# What the operations of the CPU manager do

Each operation that returns is read as moves of the policy, with the events it
appends and the blocks it takes from and gives back to the pool. Nothing is asked of
the keys of a call.
-/

namespace KvOffload.CpuManagerMoves

open KvOffload KvOffload.Base KvOffload.PolicyInterface KvOffload.CpuManager
open KvOffload.CpuPool KvOffload.CpuManagerSpec KvOffload.PolicyMoves

set_option autoImplicit false

variable {P : Type} [CachePolicy P]

def reservedBlocks (moves : List Move) : Int := (moves.map fun move => (move.reserved : Int)).sum

def droppedBlocks (moves : List Move) : Int := (moves.map fun move => (move.dropped : Int)).sum

/-- The moves of an operation, its events and the balance of the pool. -/
structure Performed (manager : CPUOffloadingManager P) (moves : List Move)
    (emitted : List OffloadingEvent) (after : CPUOffloadingManager P) : Prop where
  policy : Moves manager.policy moves after.policy
  events : after.events = manager.events.map fun events => events ++ emitted
  medium : after.medium = manager.medium
  numBlocks : after.numBlocks = manager.numBlocks
  bounded : manager.numAllocatedBlocks ≤ manager.numBlocks →
    after.numAllocatedBlocks ≤ manager.numBlocks
  balance : after.getNumFreeBlocks + reservedBlocks moves =
    manager.getNumFreeBlocks + droppedBlocks moves

theorem performed_append {manager middle after : CPUOffloadingManager P}
    {first second : List Move} {emitted later : List OffloadingEvent}
    (left : Performed manager first emitted middle) (right : Performed middle second later after) :
    Performed manager (first ++ second) (emitted ++ later) after := by
  constructor
  · exact moves_append left.policy right.policy
  · rw [right.events, left.events]
    cases manager.events <;> simp
  · exact right.medium.trans left.medium
  · exact right.numBlocks.trans left.numBlocks
  · exact fun fits => left.numBlocks ▸ right.bounded (left.numBlocks ▸ left.bounded fits)
  · have first_eq := left.balance
    have second_eq := right.balance
    simp only [reservedBlocks, droppedBlocks, List.map_append, List.sum_append] at *
    omega

theorem performed_cons {manager middle after : CPUOffloadingManager P} {move : Move}
    {moves : List Move} {emitted later : List OffloadingEvent}
    (left : Performed manager [move] emitted middle)
    (right : Performed middle moves later after) :
    Performed manager (move :: moves) (emitted ++ later) after :=
  performed_append left right

omit [CachePolicy P] in
theorem events_of_eq {events : Option (List OffloadingEvent)} :
    events = events.map fun events => events ++ [] := by
  cases events <;> simp

theorem performed_same {manager after : CPUOffloadingManager P} (same : SamePool manager after)
    {emitted : List OffloadingEvent}
    (events : after.events = manager.events.map fun events => events ++ emitted)
    (medium : after.medium = manager.medium) : Performed manager [] emitted after := by
  constructor
  · exact same.policy
  · exact events
  · exact medium
  · exact same.numBlocks
  · intro fits
    rw [same.allocated]
    exact fits
  · simp [CPUOffloadingManager.getNumFreeBlocks, same.freeList, same.numBlocks, same.allocated,
      reservedBlocks, droppedBlocks]

theorem performed_refl (manager : CPUOffloadingManager P) : Performed manager [] [] manager :=
  performed_same (same_pool_refl manager) events_of_eq rfl

/-- One move of the policy that leaves the pool alone. -/
theorem performed_move {manager after : CPUOffloadingManager P} {move : Move}
    (moved : Moved manager.policy move after.policy) (events : after.events = manager.events)
    (medium : after.medium = manager.medium) (freeList : after.freeList = manager.freeList)
    (numBlocks : after.numBlocks = manager.numBlocks)
    (allocated : after.numAllocatedBlocks = manager.numAllocatedBlocks)
    (reserves : move.reserved = 0) (drops : move.dropped = 0) :
    Performed manager [move] [] after := by
  constructor
  · exact moves_one moved
  · rw [events]
    exact events_of_eq
  · exact medium
  · exact numBlocks
  · intro fits
    rw [allocated]
    exact fits
  · simp [CPUOffloadingManager.getNumFreeBlocks, freeList, numBlocks, allocated, reservedBlocks,
      droppedBlocks, reserves, drops]

section Events

omit [CachePolicy P]

theorem emit_events (manager : CPUOffloadingManager P) (keys : List OffloadKey) (removed : Bool) :
    (manager.emit keys removed).events =
        manager.events.map (fun events => events ++ [⟨keys, manager.medium, removed⟩]) ∧
      (manager.emit keys removed).medium = manager.medium := by
  unfold CPUOffloadingManager.emit
  cases found : manager.events <;> simp [found]

theorem count_lookup_events {manager after : CPUOffloadingManager P} {key : OffloadKey}
    (counted : manager.countLookup key = .ok after) :
    after.events = manager.events ∧ after.medium = manager.medium := by
  unfold CPUOffloadingManager.countLookup at counted
  split at counted
  · cases counted
    exact ⟨rfl, rfl⟩
  · split at counted
    · cases counted
      exact ⟨rfl, rfl⟩
    · obtain ⟨room, _, counted⟩ := bind_eq_ok.mp counted
      cases counted
      exact ⟨rfl, rfl⟩

theorem record_tombstones_events (manager : CPUOffloadingManager P)
    (blockHashes : List BlockHash) :
    (manager.recordEvictionTombstones blockHashes).events = manager.events ∧
      (manager.recordEvictionTombstones blockHashes).medium = manager.medium := by
  unfold CPUOffloadingManager.recordEvictionTombstones
  split <;> exact ⟨rfl, rfl⟩

theorem clear_tombstones_events (manager : CPUOffloadingManager P) (stored : List OffloadKey) :
    (manager.clearTombstones stored).events = manager.events ∧
      (manager.clearTombstones stored).medium = manager.medium := by
  unfold CPUOffloadingManager.clearTombstones
  split <;> exact ⟨rfl, rfl⟩

theorem note_evicted_events (manager : CPUOffloadingManager P) (toEvict : List OffloadKey) :
    (manager.noteEvicted toEvict).events = manager.events.map (fun events => events ++
        if toEvict = [] then [] else [⟨toEvict, manager.medium, true⟩]) ∧
      (manager.noteEvicted toEvict).medium = manager.medium := by
  unfold CPUOffloadingManager.noteEvicted
  split
  · exact ⟨events_of_eq, rfl⟩
  · obtain ⟨recordedEvents, recordedMedium⟩ := record_tombstones_events
      { manager with evictedTotal := manager.evictedTotal + toEvict.length }
      (toEvict.map getOffloadBlockHash)
    obtain ⟨events, medium⟩ := emit_events
      ({ manager with evictedTotal := manager.evictedTotal +
        toEvict.length }.recordEvictionTombstones (toEvict.map getOffloadBlockHash)) toEvict true
    exact ⟨by rw [events, recordedEvents, recordedMedium], medium.trans recordedMedium⟩

end Events

section Operations

variable {manager after : CPUOffloadingManager P}

theorem lookup_performed {key : OffloadKey} {result : LookupResult}
    (looked : manager.lookup key = .ok (result, after)) : Performed manager [] [] after := by
  obtain ⟨counted, countOk, done⟩ := bind_eq_ok.mp looked
  cases done
  obtain ⟨events, medium⟩ := count_lookup_events countOk
  exact performed_same (count_lookup_same countOk) (events ▸ events_of_eq) medium

theorem touch_performed (keys : List OffloadKey) :
    Performed manager [.touch keys] [] (manager.touch keys) :=
  performed_move (.touch keys) rfl rfl rfl rfl rfl rfl rfl

theorem ready_iff {block : BlockStatus} : block.isReady = true ↔ 0 ≤ block.refCnt := by
  simp [BlockStatus.isReady]

theorem pin_block_performed {key : OffloadKey} {blockId : Nat}
    (pinned : manager.pinBlock key = .ok (blockId, after)) :
    ∃ move, Performed manager [move] [] after ∧ (move = .pin key ∨ move = .recount key) := by
  unfold CPUOffloadingManager.pinBlock at pinned
  cases stored : manager.get key with
  | none => simp [stored] at pinned
  | some block =>
      simp only [stored] at pinned
      obtain ⟨_, ready, pinned⟩ := bind_eq_ok.mp pinned
      have nonneg := ready_iff.mp (py_assert_eq_ok.mp ready)
      by_cases idle : block.refCnt = 0
      · simp only [idle, if_true] at pinned
        obtain ⟨policy, marked, pinned⟩ := bind_eq_ok.mp pinned
        obtain ⟨_, _, done⟩ := bind_eq_ok.mp pinned
        cases done
        exact ⟨.pin key, performed_move (.pin stored idle marked) rfl rfl rfl rfl rfl rfl rfl,
          .inl rfl⟩
      · simp only [idle, if_false] at pinned
        cases pinned
        refine ⟨.recount key, performed_move ?_ rfl rfl rfl rfl rfl rfl rfl, .inr rfl⟩
        exact .recount stored (by omega) (by omega)

theorem prepare_load_performed (keys : List OffloadKey) {manager : CPUOffloadingManager P}
    {blockIds : List Nat} (loaded : manager.prepareLoad keys = .ok (blockIds, after)) :
    ∃ moves, Performed manager moves [] after ∧
      ∀ move ∈ moves, ∃ key, move = .pin key ∨ move = .recount key := by
  induction keys generalizing manager blockIds with
  | nil =>
      cases loaded
      exact ⟨[], performed_refl _, by simp⟩
  | cons key rest ih =>
      obtain ⟨⟨blockId, middle⟩, pinned, loaded⟩ := bind_eq_ok.mp loaded
      obtain ⟨⟨otherIds, last⟩, loaded, done⟩ := bind_eq_ok.mp loaded
      cases done
      obtain ⟨move, first, kind⟩ := pin_block_performed pinned
      obtain ⟨moves, later, kinds⟩ := ih loaded
      refine ⟨move :: moves, performed_cons first later, ?_⟩
      intro other member
      rcases List.mem_cons.mp member with rfl | member
      · exact ⟨key, kind⟩
      · exact kinds other member

theorem unpin_block_performed {key : OffloadKey}
    (unpinned : manager.unpinBlock key = .ok after) :
    ∃ move, Performed manager [move] [] after ∧
      (move = .recount key ∨ move = .release key) ∧
      (move = .release key ↔ ∃ block, manager.get key = some block ∧ block.refCnt = 1) := by
  unfold CPUOffloadingManager.unpinBlock at unpinned
  cases stored : manager.get key with
  | none => simp [stored] at unpinned
  | some block =>
      simp only [stored] at unpinned
      obtain ⟨_, positive, unpinned⟩ := bind_eq_ok.mp unpinned
      have held := py_assert_eq_ok.mp positive
      by_cases last : block.refCnt - 1 = 0
      · simp only [last, if_true] at unpinned
        cases unpinned
        refine ⟨.release key, performed_move ?_ rfl rfl rfl rfl rfl rfl rfl, .inr rfl, ?_⟩
        · exact .release stored (by omega)
        · simp only [true_iff]
          exact ⟨block, rfl, by omega⟩
      · simp only [last, if_false] at unpinned
        cases unpinned
        refine ⟨.recount key, performed_move ?_ rfl rfl rfl rfl rfl rfl rfl, .inl rfl, ?_⟩
        · exact .recount stored (by omega) (by omega)
        · simp only [reduceCtorEq, false_iff]
          rintro ⟨other, found, one⟩
          cases found
          omega

/-- The keys whose last load a `complete_load` completes, in order. -/
def lastLoads (manager : CPUOffloadingManager P) : List OffloadKey → List OffloadKey
  | [] => []
  | key :: rest =>
      match manager.unpinBlock key with
      | .error _ => []
      | .ok after =>
          if (manager.get key).any fun block => block.refCnt = 1 then key :: lastLoads after rest
          else lastLoads after rest

theorem complete_load_performed (keys : List OffloadKey) {manager : CPUOffloadingManager P}
    (completed : manager.completeLoad keys = .ok after) :
    ∃ moves, Performed manager moves [] after ∧
      (∀ move ∈ moves, ∃ key, move = .recount key ∨ move = .release key) ∧
      moves.flatMap Move.released = lastLoads manager keys := by
  induction keys generalizing manager with
  | nil =>
      cases completed
      exact ⟨[], performed_refl _, by simp, rfl⟩
  | cons key rest ih =>
      obtain ⟨middle, unpinned, completed⟩ := bind_eq_ok.mp completed
      obtain ⟨move, first, kind, released⟩ := unpin_block_performed unpinned
      obtain ⟨moves, later, kinds, releasedLater⟩ := ih completed
      refine ⟨move :: moves, performed_cons first later, ?_, ?_⟩
      · intro other member
        rcases List.mem_cons.mp member with rfl | member
        · exact ⟨key, kind⟩
        · exact kinds other member
      · rw [List.flatMap_cons, releasedLater, lastLoads]
        simp only [unpinned]
        have any_iff : ((manager.get key).any fun block => decide (block.refCnt = 1)) = true ↔
            move = .release key := by
          rw [released]
          simp [Option.any_eq_true]
        rcases kind with rfl | rfl
        · rw [if_neg (by rw [any_iff]; simp)]
          rfl
        · rw [if_pos (any_iff.mpr rfl)]
          rfl

theorem publish_block_performed {key : OffloadKey}
    (published : manager.publishBlock key = some after) :
    Performed manager [.release key] [] after := by
  unfold CPUOffloadingManager.publishBlock at published
  cases stored : manager.get key with
  | none => simp [stored] at published
  | some block =>
      simp only [stored] at published
      split at published
      · cases published
      · rename_i pending
        cases published
        refine performed_move (.release stored ?_) rfl rfl rfl rfl rfl rfl rfl
        rw [ready_iff] at pending
        omega

theorem publish_blocks_performed (keys : List OffloadKey) (manager : CPUOffloadingManager P) :
    Performed manager ((manager.publishBlocks keys).1.map .release) []
      (manager.publishBlocks keys).2 := by
  induction keys generalizing manager with
  | nil => exact performed_refl manager
  | cons key rest ih =>
      unfold CPUOffloadingManager.publishBlocks
      cases published : manager.publishBlock key with
      | none => exact ih manager
      | some middle =>
          exact performed_cons (publish_block_performed published) (ih middle)

theorem discard_block_performed {key : OffloadKey}
    (discarded : manager.discardBlock key = .ok after) :
    ∃ moves, Performed manager moves [] after ∧ ∀ move ∈ moves, ∃ key, move = .discard key := by
  unfold CPUOffloadingManager.discardBlock at discarded
  cases stored : manager.get key with
  | none =>
      simp only [stored] at discarded
      cases discarded
      exact ⟨[], performed_refl manager, by simp⟩
  | some block =>
      simp only [stored] at discarded
      split at discarded
      · cases discarded
        exact ⟨[], performed_refl manager, by simp⟩
      · rename_i pending
        obtain ⟨policy, removed, done⟩ := bind_eq_ok.mp discarded
        cases done
        rw [ready_iff, not_le] at pending
        refine ⟨[.discard key], ?_, by simp⟩
        constructor
        · exact moves_one (.discard stored pending removed)
        · exact events_of_eq
        · rfl
        · rfl
        · exact id
        · simp only [CPUOffloadingManager.getNumFreeBlocks, CPUOffloadingManager.freeBlock,
            List.length_cons, reservedBlocks, droppedBlocks, List.map_cons, List.map_nil,
            List.sum_cons, List.sum_nil, Move.reserved, Move.dropped]
          push_cast
          omega

theorem discard_blocks_performed (keys : List OffloadKey) {manager : CPUOffloadingManager P}
    (discarded : manager.discardBlocks keys = .ok after) :
    ∃ moves, Performed manager moves [] after ∧ ∀ move ∈ moves, ∃ key, move = .discard key := by
  induction keys generalizing manager with
  | nil =>
      cases discarded
      exact ⟨[], performed_refl _, by simp⟩
  | cons key rest ih =>
      obtain ⟨middle, first, discarded⟩ := bind_eq_ok.mp discarded
      obtain ⟨moves, performed, kinds⟩ := discard_block_performed first
      obtain ⟨others, later, laterKinds⟩ := ih discarded
      refine ⟨moves ++ others, performed_append performed later, ?_⟩
      intro move member
      exact (List.mem_append.mp member).elim (kinds move) (laterKinds move)

/-- A successful completion publishes its pending keys with one event. -/
theorem complete_store_performed {keys : List OffloadKey} {success : Bool}
    (completed : manager.completeStore keys success = .ok after) :
    (success = true ∧ Performed manager ((manager.publishBlocks keys).1.map .release)
        (if (manager.publishBlocks keys).1 = [] then []
          else [⟨(manager.publishBlocks keys).1, manager.medium, false⟩]) after) ∨
      (success = false ∧ ∃ moves, Performed manager moves [] after ∧
        ∀ move ∈ moves, ∃ key, move = .discard key) := by
  unfold CPUOffloadingManager.completeStore at completed
  cases success with
  | false => exact .inr ⟨rfl, discard_blocks_performed keys (by simpa using completed)⟩
  | true =>
      have published := publish_blocks_performed keys manager
      simp only [if_true] at completed
      refine .inl ⟨rfl, ?_⟩
      split at completed
      · rename_i none
        cases completed
        rw [if_pos none]
        exact published
      · rename_i some
        cases completed
        rw [if_neg some]
        generalize manager.publishBlocks keys = result at published some
        obtain ⟨clearedEvents, clearedMedium⟩ := clear_tombstones_events result.2 result.1
        obtain ⟨events, medium⟩ := emit_events (result.2.clearTombstones result.1) result.1 false
        have emitted : Performed result.2 []
            [⟨result.1, manager.medium, false⟩]
            ((result.2.clearTombstones result.1).emit result.1 false) := by
          refine performed_same (same_pool_trans (clear_tombstones_same _ _) (emit_same _ _ _))
            ?_ (medium.trans clearedMedium)
          rw [events, clearedEvents, clearedMedium, published.medium]
        simpa using performed_append published emitted

end Operations

section Stores

variable [LawfulCachePolicy P] [TrackedPolicy P] {manager after : CPUOffloadingManager P}

/-- The blocks `prepare_store` is short of. -/
def shortage (manager : CPUOffloadingManager P) (numToStore : Nat) : Nat :=
  (numToStore - manager.getNumFreeBlocks).toNat

omit [LawfulCachePolicy P] [TrackedPolicy P] in
theorem take_victims_performed {policy : P} {count : Nat} {guarded : List OffloadKey}
    {victims : Victims}
    (evicted : CachePolicy.evict manager.policy count guarded = .ok (some (victims, policy))) :
    Performed manager [.evict count guarded victims] [] (manager.takeVictims policy victims) := by
  rw [CPUOffloadingManager.takeVictims, free_victims_spec]
  constructor
  · exact moves_one (.evict evicted)
  · exact events_of_eq
  · rfl
  · rfl
  · exact id
  · simp only [CPUOffloadingManager.getNumFreeBlocks, List.length_append, List.length_reverse,
      List.length_map, reservedBlocks, droppedBlocks, List.map_cons, List.map_nil, List.sum_cons,
      List.sum_nil, Move.reserved, Move.dropped]
    push_cast
    omega

omit [CachePolicy P] [LawfulCachePolicy P] [TrackedPolicy P] in
theorem cap_eviction_events (requested : Int) :
    (manager.capEviction requested).2.events = manager.events ∧
      (manager.capEviction requested).2.medium = manager.medium := by
  unfold CPUOffloadingManager.capEviction
  split <;> exact ⟨rfl, rfl⟩

omit [CachePolicy P] [LawfulCachePolicy P] [TrackedPolicy P] in
/-- A request that the cap cuts stays short of blocks. -/
theorem cap_eviction_enough {requested : Int}
    (enough : requested ≤ (manager.capEviction requested).1) :
    (manager.capEviction requested).1 = requested := by
  unfold CPUOffloadingManager.capEviction at enough ⊢
  split
  · rename_i capped
    rw [if_pos capped] at enough
    simp only at enough
    omega
  · rfl

omit [LawfulCachePolicy P] [TrackedPolicy P] in
theorem make_room_performed {keys : List OffloadKey} {numToStore : Nat}
    {evicted : Option (List OffloadKey)}
    (made : manager.makeRoom keys numToStore = .ok (evicted, after)) :
    (evicted = none ∧ Performed manager [] [] after) ∨
      (evicted = some [] ∧ shortage manager numToStore = 0 ∧ after = manager) ∨
      ∃ victims, evicted = some (victims.map Prod.fst) ∧ 0 < shortage manager numToStore ∧
        Performed manager [.evict (shortage manager numToStore) keys victims] [] after := by
  unfold CPUOffloadingManager.makeRoom at made
  simp only at made
  split at made
  · rename_i short
    obtain ⟨cappedEvents, cappedMedium⟩ :=
      @cap_eviction_events P manager (numToStore - manager.getNumFreeBlocks)
    have capped : Performed manager [] []
        (manager.capEviction (numToStore - manager.getNumFreeBlocks)).2 :=
      performed_same (cap_eviction_same _ _) (cappedEvents ▸ events_of_eq) cappedMedium
    have uncut := @cap_eviction_enough P manager (numToStore - manager.getNumFreeBlocks)
    generalize manager.capEviction (numToStore - manager.getNumFreeBlocks) = capping
      at made capped uncut
    obtain ⟨count, counted⟩ := capping
    simp only at made capped uncut
    split at made
    · cases made
      exact .inl ⟨rfl, capped⟩
    · rename_i possible
      rw [not_or, not_lt, not_lt] at possible
      obtain ⟨result, evict, made⟩ := bind_eq_ok.mp made
      cases result with
      | none =>
          cases made
          exact .inl ⟨rfl, capped⟩
      | some result =>
          obtain ⟨victims, policy⟩ := result
          obtain ⟨_, _, done⟩ := bind_eq_ok.mp made
          cases done
          have count_eq : count = numToStore - manager.getNumFreeBlocks := uncut (by omega)
          subst count_eq
          refine .inr (.inr ⟨victims, rfl, ?_, ?_⟩)
          · unfold shortage
            omega
          · exact performed_append capped (take_victims_performed evict)
  · rename_i room
    cases made
    refine .inr (.inl ⟨rfl, ?_, rfl⟩)
    unfold shortage
    omega

/-- Entering keys that are absent or pending, one after the other. -/
theorem insert_blocks_moves (entries : List (OffloadKey × Nat)) {policy : P}
    (tracked : TrackedPolicy.Tracked policy)
    (unready : ∀ entry ∈ entries, ∀ block, CachePolicy.get policy entry.1 = some block →
      block.refCnt < 0) :
    Moves policy (entries.map fun entry => .reserve entry.1)
      ((entries.map fun entry => (entry.1, BlockStatus.new entry.2)).foldl
        (fun policy entry => CachePolicy.insert policy entry.1 entry.2) policy) := by
  induction entries generalizing policy with
  | nil => rfl
  | cons entry rest ih =>
      have moved : Moved policy (.reserve entry.1)
          (CachePolicy.insert policy entry.1 (BlockStatus.new entry.2)) :=
        .reserve entry.2 (unready entry List.mem_cons_self)
      refine ⟨_, moved, ih (TrackedPolicy.tracked_moved tracked moved) ?_⟩
      intro other member block found
      rw [TrackedPolicy.get_reserve entry.2 tracked (unready entry List.mem_cons_self)] at found
      split at found
      · cases found
        simp
      · exact unready other (List.mem_cons_of_mem _ member) block found

theorem reserve_blocks_performed {keysToStore toEvict : List OffloadKey}
    {output : PrepareStoreOutput} (tracked : TrackedPolicy.Tracked manager.policy)
    (absent : ∀ key ∈ keysToStore, manager.get key = none)
    (reserved : manager.reserveBlocks keysToStore toEvict = .ok (output, after)) :
    Performed manager (keysToStore.map .reserve) [] after ∧ output.keysToStore = keysToStore ∧
      output.evictedKeys = toEvict := by
  obtain ⟨⟨blocks, slotted⟩, allocated, reserved⟩ := bind_eq_ok.mp reserved
  obtain ⟨_, lengths, done⟩ := bind_eq_ok.mp reserved
  cases done
  have lengths := py_assert_eq_ok.mp lengths
  obtain ⟨_, enough, done⟩ := bind_eq_ok.mp allocated
  have enough := py_assert_eq_ok.mp enough
  cases done
  refine ⟨?_, rfl, rfl⟩
  generalize ids_eq : List.range' manager.numAllocatedBlocks
      (min keysToStore.length (manager.numBlocks - manager.numAllocatedBlocks)) ++
        manager.freeList.take (keysToStore.length -
          min keysToStore.length (manager.numBlocks - manager.numAllocatedBlocks)) = ids
    at lengths ⊢
  rw [List.length_map] at lengths
  have zip_eq : keysToStore.zip (ids.map BlockStatus.new) =
      (keysToStore.zip ids).map fun entry => (entry.1, BlockStatus.new entry.2) := by
    rw [List.zip_map_right]
    rfl
  have moves_eq : keysToStore.map Move.reserve =
      (keysToStore.zip ids).map fun entry => .reserve entry.1 := by
    have firsts := @List.map_fst_zip _ _ keysToStore ids (by omega)
    conv_lhs => rw [← firsts, List.map_map]
    rfl
  constructor
  · rw [moves_eq]
    simp only [CPUOffloadingManager.addWritePending, CPUOffloadingManager.insertBlocks,
      CPUOffloadingManager.withSlots, zip_eq]
    apply insert_blocks_moves _ tracked
    intro entry member block found
    have none := absent entry.1 (List.of_mem_zip member).1
    rw [CPUOffloadingManager.get] at none
    cases none.symm.trans found
  · exact events_of_eq
  · rfl
  · rfl
  · intro fits
    show manager.numAllocatedBlocks + _ ≤ _
    omega
  · have reserved_eq : reservedBlocks (keysToStore.map Move.reserve) = keysToStore.length := by
      simp [reservedBlocks, Move.reserved, Function.comp_def]
    have dropped_eq : droppedBlocks (keysToStore.map Move.reserve) = 0 := by
      simp [droppedBlocks, Move.dropped, Function.comp_def]
    rw [reserved_eq, dropped_eq]
    simp only [CPUOffloadingManager.getNumFreeBlocks, CPUOffloadingManager.addWritePending,
      CPUOffloadingManager.insertBlocks, CPUOffloadingManager.withSlots, List.length_drop]
    omega

/-- The gate-filtered input of a store. -/
def passingKeys (manager : CPUOffloadingManager P) (keys : List OffloadKey)
    (bypassThreshold : Bool) : List OffloadKey := (manager.gateKeys keys bypassThreshold).1

/-- The keys of a store that are not in the pool yet. -/
def missingKeys (manager : CPUOffloadingManager P) (keys : List OffloadKey)
    (bypassThreshold : Bool) : List OffloadKey :=
  (passingKeys manager keys bypassThreshold).filter fun key => (manager.get key).isNone

/-- The three ways in which `prepare_store` returns. -/
inductive StorePerformed (manager : CPUOffloadingManager P) (passing missing : List OffloadKey) :
    Option PrepareStoreOutput → CPUOffloadingManager P → Prop where
  | refused {after : CPUOffloadingManager P} (performed : Performed manager [] [] after) :
      StorePerformed manager passing missing none after
  | roomy {after : CPUOffloadingManager P} {output : PrepareStoreOutput}
      (stores : output.keysToStore = missing) (evicts : output.evictedKeys = [])
      (fits : missing = [] ∨ shortage manager missing.length = 0)
      (performed : Performed manager (missing.map .reserve) [] after) :
      StorePerformed manager passing missing (some output) after
  | evicting {after : CPUOffloadingManager P} {output : PrepareStoreOutput} {victims : Victims}
      (stores : output.keysToStore = missing) (evicts : output.evictedKeys = victims.map Prod.fst)
      (short : 0 < shortage manager missing.length)
      (performed : Performed manager
        (.evict (shortage manager missing.length) passing victims :: missing.map .reserve)
        [⟨output.evictedKeys, manager.medium, true⟩] after) :
      StorePerformed manager passing missing (some output) after

omit [CachePolicy P] [LawfulCachePolicy P] [TrackedPolicy P] in
theorem gate_keys_events (keys : List OffloadKey) (bypassThreshold : Bool) :
    (manager.gateKeys keys bypassThreshold).2.events = manager.events ∧
      (manager.gateKeys keys bypassThreshold).2.medium = manager.medium := by
  unfold CPUOffloadingManager.gateKeys
  split
  · exact ⟨rfl, rfl⟩
  · split <;> exact ⟨rfl, rfl⟩

theorem performed_evicted {count : Nat} {guarded : List OffloadKey} {victims : Victims}
    (tracked : TrackedPolicy.Tracked manager.policy)
    (performed : Performed manager [.evict count guarded victims] [] after) :
    EvictOutcome manager.policy count guarded victims after.policy := by
  obtain ⟨policy, moved, same⟩ := performed.policy
  obtain rfl := same
  cases moved with
  | evict evicted => exact evicted_outcome tracked evicted

theorem prepare_store_performed {keys : List OffloadKey} {bypassThreshold : Bool}
    {output : Option PrepareStoreOutput} (tracked : TrackedPolicy.Tracked manager.policy)
    (prepared : manager.prepareStore keys bypassThreshold = .ok (output, after)) :
    StorePerformed manager (passingKeys manager keys bypassThreshold)
      (missingKeys manager keys bypassThreshold) output after := by
  have gateSame := (gate_keys_spec manager keys bypassThreshold).1
  obtain ⟨gateEvents, gateMedium⟩ := @gate_keys_events P manager keys bypassThreshold
  unfold missingKeys passingKeys
  unfold CPUOffloadingManager.prepareStore at prepared
  generalize manager.gateKeys keys bypassThreshold = gated
    at gateSame gateEvents gateMedium prepared ⊢
  obtain ⟨passing, gatedManager⟩ := gated
  simp only [same_pool_get gateSame] at gateSame gateEvents gateMedium prepared ⊢
  generalize missing_eq : (passing.filter fun key => (manager.get key).isNone) = missing
    at prepared ⊢
  split at prepared
  · rename_i nothing
    cases prepared
    subst nothing
    exact .roomy rfl rfl (.inl rfl)
      (performed_same gateSame (gateEvents ▸ events_of_eq) gateMedium)
  · obtain ⟨⟨evicted, roomy⟩, made, prepared⟩ := bind_eq_ok.mp prepared
    generalize counted_eq : { gatedManager with
      allocationSizesInCurrentBatch :=
        gatedManager.allocationSizesInCurrentBatch ++ [missing.length] } = counted at made
    have counting : Performed manager [] [] counted := by
      subst counted_eq
      apply performed_same
      · exact same_pool_trans gateSame ⟨rfl, rfl, rfl, rfl, rfl, rfl⟩
      · exact gateEvents ▸ events_of_eq
      · exact gateMedium
    have shortage_eq : shortage counted missing.length = shortage manager missing.length := by
      have balance := counting.balance
      simp only [reservedBlocks, droppedBlocks, List.map_nil, List.sum_nil] at balance
      unfold shortage
      congr 2
      omega
    have countedTracked : TrackedPolicy.Tracked counted.policy :=
      tracked_moves tracked counting.policy
    have absent : ∀ key ∈ missing, counted.get key = none := by
      intro key member
      have same : counted.policy = manager.policy := counting.policy
      rw [← missing_eq, List.mem_filter] at member
      rw [CPUOffloadingManager.get, same]
      exact Option.isNone_iff_eq_none.mp member.2
    have made := make_room_performed made
    rw [shortage_eq] at made
    rcases made with ⟨rfl, refused⟩ | ⟨rfl, enough, rfl⟩ | ⟨victims, rfl, short, evict⟩
    · cases prepared
      exact .refused (performed_append counting refused)
    · obtain ⟨⟨output, last⟩, reserved, done⟩ := bind_eq_ok.mp prepared
      cases done
      obtain ⟨performed, stores, evicts⟩ := reserve_blocks_performed countedTracked absent
        (by simpa [CPUOffloadingManager.noteEvicted] using reserved)
      exact .roomy stores evicts (.inr enough) (performed_append counting performed)
    · obtain ⟨⟨output, last⟩, reserved, done⟩ := bind_eq_ok.mp prepared
      cases done
      have outcome := performed_evicted countedTracked evict
      have some : victims.map Prod.fst ≠ [] := by
        intro empty
        have := outcome.count_eq
        rw [List.map_eq_nil_iff] at empty
        simp [empty] at this
        omega
      obtain ⟨notedEvents, notedMedium⟩ := note_evicted_events roomy (victims.map Prod.fst)
      have noted : Performed roomy [] [⟨victims.map Prod.fst, manager.medium, true⟩]
          (roomy.noteEvicted (victims.map Prod.fst)) := by
        apply performed_same (note_evicted_same _ _) _ notedMedium
        rw [notedEvents, if_neg some, evict.medium, counting.medium]
      have room := performed_append evict noted
      have stillAbsent : ∀ key ∈ missing,
          (roomy.noteEvicted (victims.map Prod.fst)).get key = none := by
        intro key member
        rw [same_pool_get (note_evicted_same roomy (victims.map Prod.fst))]
        refine (outcome.get_after key).trans ?_
        split
        · rfl
        · exact absent key member
      obtain ⟨performed, stores, evicts⟩ := reserve_blocks_performed
        (tracked_moves countedTracked room.policy) stillAbsent reserved
      apply StorePerformed.evicting stores evicts short
      rw [evicts]
      exact performed_append counting (performed_append room performed)

end Stores

end KvOffload.CpuManagerMoves
