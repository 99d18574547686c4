import KvOffload.ArcPolicy
import KvOffload.CpuManagerSpec
import KvOffload.LruPolicy

/-!
# Pending blocks of the CPU manager

Which keys wait for a transfer to fill them, without the slot accounting: an offer may
list a key twice, and then the counters of the pool are off, but the map from keys to
blocks is still the last write for each key.
-/

namespace KvOffload.PendingBlocks

open KvOffload KvOffload.Base KvOffload.PolicyInterface KvOffload.CpuManager
open KvOffload.CpuPool KvOffload.CpuManagerSpec

set_option autoImplicit false

/-- New blocks for keys that were absent before the batch. A batch may list a key twice. -/
class BatchInserting (P : Type) [CachePolicy P] [LawfulCachePolicy P] : Prop where
  insert_batch : ∀ {policy : P}, LawfulCachePolicy.Inv policy →
    ∀ entries : List (OffloadKey × Nat),
      (∀ entry ∈ entries, CachePolicy.get policy entry.1 = none) →
        let after := entries.foldl
          (fun policy entry => CachePolicy.insert policy entry.1 (BlockStatus.new entry.2)) policy
        LawfulCachePolicy.Inv after ∧ ∀ other, other ∉ entries.map Prod.fst →
          CachePolicy.get after other = CachePolicy.get policy other

section Policies

open LruPolicy ArcPolicy

theorem lru_insert_batch (entries : List (OffloadKey × Nat)) {policy : LRUCachePolicy}
    (inv : EvictableIffIdle policy)
    (waiting : ∀ entry ∈ entries, ∀ block, policy.blocks.get? entry.1 = some block →
      block.refCnt ≠ 0) :
    let after := entries.foldl
      (fun policy entry => policy.insert entry.1 (BlockStatus.new entry.2)) policy
    EvictableIffIdle after ∧ ∀ other, other ∉ entries.map Prod.fst →
      after.blocks.get? other = policy.blocks.get? other := by
  induction entries generalizing policy with
  | nil => exact ⟨inv, fun _ _ => rfl⟩
  | cons first rest ih =>
      let middle := policy.insert first.1 (BlockStatus.new first.2)
      have blocks : ∀ other, middle.blocks.get? other =
          if other = first.1 then some (BlockStatus.new first.2)
          else policy.blocks.get? other :=
        fun other => OrderedMap.get_set policy.blocks first.1 other _
      have middleInv : EvictableIffIdle middle := by
        intro other
        rw [blocks]
        show other ∈ policy.evictableBlocks.keys ↔ _
        rw [inv other]
        by_cases same : other = first.1
        · have busy := waiting first List.mem_cons_self
          subst same
          simpa using busy
        · simp [same]
      have stillWaiting : ∀ entry ∈ rest, ∀ block, middle.blocks.get? entry.1 = some block →
          block.refCnt ≠ 0 := by
        intro entry member block found
        rw [blocks] at found
        split at found
        · cases found
          simp
        · exact waiting entry (List.mem_cons_of_mem _ member) block found
      obtain ⟨afterInv, others⟩ := ih middleInv stillWaiting
      refine ⟨afterInv, fun other outside => ?_⟩
      rw [List.map_cons, List.mem_cons, not_or] at outside
      have kept := others other outside.2
      rw [blocks, if_neg outside.1] at kept
      exact kept

instance : BatchInserting LRUCachePolicy where
  insert_batch inv entries fresh := by
    apply lru_insert_batch entries inv
    intro entry member block found
    have absent := fresh entry member
    rw [show CachePolicy.get _ entry.1 = some block from found] at absent
    cases absent

theorem arc_insert_batch (entries : List (OffloadKey × Nat)) {policy : ARCCachePolicy}
    (inv : LiveListsDisjoint policy)
    (young : ∀ entry ∈ entries, policy.t2.get? entry.1 = none) :
    let after := entries.foldl
      (fun policy entry => policy.insert entry.1 (BlockStatus.new entry.2)) policy
    LiveListsDisjoint after ∧ ∀ other, other ∉ entries.map Prod.fst →
      after.get other = policy.get other := by
  induction entries generalizing policy with
  | nil => exact ⟨inv, fun _ _ => rfl⟩
  | cons first rest ih =>
      let middle := policy.insert first.1 (BlockStatus.new first.2)
      have inT1 : ∀ other, middle.t1.get? other =
          if other = first.1 then some (BlockStatus.new first.2) else policy.t1.get? other :=
        fun other => OrderedMap.get_set policy.t1 first.1 other _
      have middleInv : LiveListsDisjoint middle := by
        intro other
        rw [inT1]
        by_cases same : other = first.1
        · exact .inr (same ▸ young first List.mem_cons_self)
        · rw [if_neg same]
          exact inv other
      obtain ⟨afterInv, others⟩ := ih middleInv fun entry member =>
        young entry (List.mem_cons_of_mem _ member)
      refine ⟨afterInv, fun other outside => ?_⟩
      rw [List.map_cons, List.mem_cons, not_or] at outside
      apply (others other outside.2).trans
      show (middle.t1.get? other).or (policy.t2.get? other) = _
      rw [inT1, if_neg outside.1]
      rfl

instance : BatchInserting ARCCachePolicy where
  insert_batch inv entries fresh := by
    apply arc_insert_batch entries inv
    intro entry member
    have absent := fresh entry member
    exact (Option.or_eq_none_iff.mp absent).2

end Policies

variable {P : Type} [CachePolicy P] {primary after : CPUOffloadingManager P}

/-- The key waits for a transfer. -/
def Pending (primary : CPUOffloadingManager P) (key : OffloadKey) : Prop :=
  primary.lookupResult key = .hitPending

theorem pending_iff (key : OffloadKey) : Pending primary key ↔
    ∃ block, primary.get key = some block ∧ block.refCnt < 0 := by
  unfold Pending CPUOffloadingManager.lookupResult
  cases primary.get key with
  | none => simp
  | some block => by_cases waiting : block.refCnt < 0 <;> simp [BlockStatus.isReady, waiting]

theorem pending_congr {key : OffloadKey} (same : after.get key = primary.get key) :
    Pending after key ↔ Pending primary key := by
  rw [pending_iff, pending_iff, same]

variable [LawfulCachePolicy P]

/-- The policy invariant alone. -/
def Lawful (primary : CPUOffloadingManager P) : Prop := LawfulCachePolicy.Inv primary.policy

theorem same_pool_lawful (same : SamePool primary after) (lawful : Lawful primary) :
    Lawful after ∧ ∀ key, after.get key = primary.get key := by
  refine ⟨?_, fun key => congrFun (same_pool_get same) key⟩
  unfold Lawful
  rw [same.policy]
  exact lawful

theorem touch_lawful (keys : List OffloadKey) (lawful : Lawful primary) :
    Lawful (primary.touch keys) ∧ ∀ key, (primary.touch keys).get key = primary.get key :=
  ⟨LawfulCachePolicy.inv_touch lawful keys, LawfulCachePolicy.get_touch lawful keys⟩

omit [LawfulCachePolicy P] in
/-- One block changes its count and stays ready. -/
theorem recounted_pending {key : OffloadKey} {block : BlockStatus} {refCnt : Int}
    (bound : primary.get key = some block)
    (update : ∀ other, after.get other =
      if other = key then some (block.withRefCnt refCnt) else primary.get other)
    (ready : 0 ≤ block.refCnt) (stillReady : 0 ≤ refCnt) (other : OffloadKey) :
    Pending after other ↔ Pending primary other := by
  by_cases same : other = key
  · subst same
    rw [pending_iff, pending_iff, update, if_pos rfl, bound]
    constructor
    · rintro ⟨found, here, waiting⟩
      cases here
      exact absurd waiting (not_lt.mpr stillReady)
    · rintro ⟨found, here, waiting⟩
      cases here
      exact absurd waiting (not_lt.mpr ready)
  · exact pending_congr (by rw [update, if_neg same])

theorem pin_block_pending {key : OffloadKey} {blockId : Nat} (lawful : Lawful primary)
    (pinned : primary.pinBlock key = .ok (blockId, after)) :
    Lawful after ∧ ∀ other, Pending after other ↔ Pending primary other := by
  unfold CPUOffloadingManager.pinBlock at pinned
  cases bound : primary.get key with
  | none => simp [bound] at pinned
  | some block =>
      simp only [bound] at pinned
      obtain ⟨_, isReady, pinned⟩ := bind_eq_ok.mp pinned
      have ready : 0 ≤ block.refCnt := by
        simpa [BlockStatus.isReady] using py_assert_eq_ok.mp isReady
      by_cases idle : block.refCnt = 0
      · obtain ⟨policy, marked, inv, get⟩ := LawfulCachePolicy.pin_ok lawful bound idle
        simp only [idle, if_true, marked, ok_bind, zero_add] at pinned
        obtain ⟨_, _, pinned⟩ := bind_eq_ok.mp pinned
        cases pinned
        exact ⟨inv, recounted_pending bound get ready (by omega)⟩
      · simp only [idle, if_false] at pinned
        cases pinned
        exact ⟨LawfulCachePolicy.inv_recount lawful bound idle (by omega),
          recounted_pending bound (LawfulCachePolicy.get_recount lawful bound) ready (by omega)⟩

theorem prepare_load_pending (keys : List OffloadKey) {primary : CPUOffloadingManager P}
    {blockIds : List Nat} (lawful : Lawful primary)
    (loaded : primary.prepareLoad keys = .ok (blockIds, after)) :
    Lawful after ∧ ∀ other, Pending after other ↔ Pending primary other := by
  induction keys generalizing primary blockIds with
  | nil =>
      cases loaded
      exact ⟨lawful, fun _ => Iff.rfl⟩
  | cons key rest ih =>
      obtain ⟨⟨blockId, middle⟩, pinned, loaded⟩ := bind_eq_ok.mp loaded
      obtain ⟨⟨others, last⟩, later, done⟩ := bind_eq_ok.mp loaded
      cases done
      obtain ⟨middleLawful, first⟩ := pin_block_pending lawful pinned
      obtain ⟨lastLawful, second⟩ := ih middleLawful later
      exact ⟨lastLawful, fun other => (second other).trans (first other)⟩

theorem unpin_block_pending {key : OffloadKey} (lawful : Lawful primary)
    (unpinned : primary.unpinBlock key = .ok after) :
    Lawful after ∧ ∀ other, Pending after other ↔ Pending primary other := by
  unfold CPUOffloadingManager.unpinBlock at unpinned
  cases bound : primary.get key with
  | none => simp [bound] at unpinned
  | some block =>
      simp only [bound] at unpinned
      obtain ⟨_, held, unpinned⟩ := bind_eq_ok.mp unpinned
      have held := py_assert_eq_ok.mp held
      by_cases last : block.refCnt - 1 = 0
      · simp only [last, if_true] at unpinned
        cases unpinned
        exact ⟨LawfulCachePolicy.inv_release lawful bound (by omega),
          recounted_pending bound (LawfulCachePolicy.get_release lawful bound) (by omega) le_rfl⟩
      · simp only [last, if_false] at unpinned
        cases unpinned
        exact ⟨LawfulCachePolicy.inv_recount lawful bound (by omega) last,
          recounted_pending bound (LawfulCachePolicy.get_recount lawful bound) (by omega)
            (by omega)⟩

theorem complete_load_pending (keys : List OffloadKey) {primary : CPUOffloadingManager P}
    (lawful : Lawful primary) (completed : primary.completeLoad keys = .ok after) :
    Lawful after ∧ ∀ other, Pending after other ↔ Pending primary other := by
  induction keys generalizing primary with
  | nil =>
      cases completed
      exact ⟨lawful, fun _ => Iff.rfl⟩
  | cons key rest ih =>
      obtain ⟨middle, unpinned, later⟩ := bind_eq_ok.mp completed
      obtain ⟨middleLawful, first⟩ := unpin_block_pending lawful unpinned
      obtain ⟨lastLawful, second⟩ := ih middleLawful later
      exact ⟨lastLawful, fun other => (second other).trans (first other)⟩

/-- The key no longer waits, and the others wait as before. -/
def Settled (primary after : CPUOffloadingManager P) (keys : List OffloadKey) : Prop :=
  Lawful after ∧ ∀ other, Pending after other ↔ Pending primary other ∧ other ∉ keys

theorem settled_nil (lawful : Lawful primary) : Settled primary primary [] :=
  ⟨lawful, fun other => by simp⟩

theorem settled_cons {key : OffloadKey} {rest : List OffloadKey}
    {middle : CPUOffloadingManager P} (first : Settled primary middle [key])
    (later : Settled middle after rest) : Settled primary after (key :: rest) := by
  refine ⟨later.1, fun other => ?_⟩
  rw [later.2, first.2, List.mem_singleton, List.mem_cons, not_or, and_assoc]

/-- A key that does not wait is left alone. -/
theorem settled_of_absent {key : OffloadKey} (lawful : Lawful primary)
    (absent : ¬Pending primary key) : Settled primary primary [key] := by
  refine ⟨lawful, fun other => ?_⟩
  rw [List.mem_singleton]
  constructor
  · intro waiting
    exact ⟨waiting, fun same => absent (same ▸ waiting)⟩
  · exact And.left

/-- A key whose block is no longer pending. -/
theorem settled_of_update {key : OffloadKey} {block : Option BlockStatus}
    (lawful : Lawful after)
    (update : ∀ other, after.get other = if other = key then block else primary.get other)
    (ready : ∀ found ∈ block, 0 ≤ found.refCnt) : Settled primary after [key] := by
  refine ⟨lawful, fun other => ?_⟩
  rw [List.mem_singleton]
  by_cases same : other = key
  · subst same
    rw [pending_iff, update, if_pos rfl]
    constructor
    · rintro ⟨found, here, waiting⟩
      exact absurd waiting (not_lt.mpr (ready found here))
    · exact fun kept => absurd rfl kept.2
  · have kept : Pending after other ↔ Pending primary other :=
      pending_congr (by rw [update, if_neg same])
    rw [kept]
    exact ⟨fun waiting => ⟨waiting, same⟩, And.left⟩

theorem publish_block_settled {key : OffloadKey} (lawful : Lawful primary) :
    match primary.publishBlock key with
    | none => ¬Pending primary key
    | some after => Settled primary after [key] := by
  unfold CPUOffloadingManager.publishBlock
  cases bound : primary.get key with
  | none =>
      rw [pending_iff, bound]
      rintro ⟨_, found, _⟩
      cases found
  | some block =>
      dsimp only
      by_cases ready : block.isReady = true
      · rw [if_pos ready, pending_iff, bound]
        rintro ⟨_, found, waiting⟩
        cases found
        simp only [BlockStatus.isReady, decide_eq_true_eq] at ready
        omega
      · rw [if_neg ready]
        have waiting : block.refCnt < 0 := by simpa [BlockStatus.isReady] using ready
        have inv := LawfulCachePolicy.inv_release lawful bound (by omega)
        have update := LawfulCachePolicy.get_release lawful bound
        apply settled_of_update (by exact inv) (by exact update)
        intro found here
        cases here
        exact le_rfl

theorem publish_blocks_settled (keys : List OffloadKey) {primary : CPUOffloadingManager P}
    (lawful : Lawful primary) : Settled primary (primary.publishBlocks keys).2 keys := by
  induction keys generalizing primary with
  | nil => exact settled_nil lawful
  | cons key rest ih =>
      have first : match primary.publishBlock key with
          | none => ¬Pending primary key
          | some after => Settled primary after [key] := publish_block_settled lawful
      unfold CPUOffloadingManager.publishBlocks
      cases published : primary.publishBlock key with
      | none =>
          rw [published] at first
          exact settled_cons (settled_of_absent lawful first) (ih lawful)
      | some middle =>
          rw [published] at first
          exact settled_cons first (ih first.1)

theorem discard_block_settled {key : OffloadKey} (lawful : Lawful primary)
    (discarded : primary.discardBlock key = .ok after) : Settled primary after [key] := by
  unfold CPUOffloadingManager.discardBlock at discarded
  cases bound : primary.get key with
  | none =>
      simp only [bound] at discarded
      cases discarded
      apply settled_of_absent lawful
      rw [pending_iff, bound]
      rintro ⟨_, found, _⟩
      cases found
  | some block =>
      simp only [bound] at discarded
      split at discarded
      · rename_i ready
        cases discarded
        apply settled_of_absent lawful
        rw [pending_iff, bound]
        rintro ⟨_, found, waiting⟩
        cases found
        simp only [BlockStatus.isReady, decide_eq_true_eq] at ready
        omega
      · obtain ⟨policy, removed, discarded⟩ := bind_eq_ok.mp discarded
        cases discarded
        obtain ⟨expected, ok, inv, get⟩ := LawfulCachePolicy.remove_ok lawful bound
        rw [removed] at ok
        cases ok
        apply settled_of_update (by exact inv) (by exact get)
        intro found here
        cases here

theorem discard_blocks_settled (keys : List OffloadKey) {primary : CPUOffloadingManager P}
    (lawful : Lawful primary) (discarded : primary.discardBlocks keys = .ok after) :
    Settled primary after keys := by
  induction keys generalizing primary with
  | nil =>
      cases discarded
      exact settled_nil lawful
  | cons key rest ih =>
      obtain ⟨middle, first, later⟩ := bind_eq_ok.mp discarded
      have settled := discard_block_settled lawful first
      exact settled_cons settled (ih settled.1 later)

theorem settled_of_same {keys : List OffloadKey} {middle : CPUOffloadingManager P}
    (settled : Settled primary middle keys) (same : SamePool middle after) :
    Settled primary after keys := by
  obtain ⟨lawful, get⟩ := same_pool_lawful same settled.1
  exact ⟨lawful, fun other => (pending_congr (get other)).trans (settled.2 other)⟩

theorem complete_store_settled {keys : List OffloadKey} {success : Bool}
    (lawful : Lawful primary) (completed : primary.completeStore keys success = .ok after) :
    Settled primary after keys := by
  unfold CPUOffloadingManager.completeStore at completed
  split at completed
  · have published := publish_blocks_settled keys lawful
    dsimp only at completed
    split at completed
    · cases completed
      exact published
    · cases completed
      exact settled_of_same published
        (same_pool_trans (clear_tombstones_same _ _) (emit_same _ _ _))
  · exact discard_blocks_settled keys lawful completed

theorem make_room_pending {keys : List OffloadKey} {numToStore : Nat}
    {evicted : Option (List OffloadKey)} (lawful : Lawful primary)
    (made : primary.makeRoom keys numToStore = .ok (evicted, after)) :
    Lawful after ∧ ∀ other, after.get other = primary.get other ∨ after.get other = none := by
  unfold CPUOffloadingManager.makeRoom at made
  dsimp only at made
  split at made
  · have same := cap_eviction_same primary (numToStore - primary.getNumFreeBlocks)
    generalize primary.capEviction (numToStore - primary.getNumFreeBlocks) = capped
      at made same
    obtain ⟨count, counted⟩ := capped
    obtain ⟨countedLawful, get⟩ := same_pool_lawful same lawful
    dsimp only at made
    split at made
    · cases made
      exact ⟨countedLawful, fun other => .inl (get other)⟩
    · obtain ⟨chosen, evict, made⟩ := bind_eq_ok.mp made
      cases chosen with
      | none =>
          cases made
          exact ⟨countedLawful, fun other => .inl (get other)⟩
      | some chosen =>
          obtain ⟨_, _, made⟩ := bind_eq_ok.mp made
          cases made
          rcases LawfulCachePolicy.evict_ok countedLawful count.toNat keys with
            failed | ⟨victims, policy, ok, inv, outcome⟩
          · rw [evict] at failed
            cases failed
          · rw [evict] at ok
            cases ok
            unfold CPUOffloadingManager.takeVictims
            rw [free_victims_spec]
            refine ⟨inv, fun other => ?_⟩
            have removed := outcome.get_after other
            by_cases victim : other ∈ victims.map Prod.fst
            · rw [if_pos victim] at removed
              exact .inr removed
            · rw [if_neg victim] at removed
              exact .inl (removed.trans (get other))
  · cases made
    exact ⟨lawful, fun other => .inl rfl⟩

variable [BatchInserting P]

theorem reserve_blocks_pending {keysToStore toEvict : List OffloadKey}
    {output : PrepareStoreOutput} (lawful : Lawful primary)
    (fresh : ∀ key ∈ keysToStore, primary.get key = none)
    (reserved : primary.reserveBlocks keysToStore toEvict = .ok (output, after)) :
    output.keysToStore = keysToStore ∧ Lawful after ∧
      ∀ other, other ∉ keysToStore → after.get other = primary.get other := by
  obtain ⟨⟨blocks, allocated⟩, allocating, reserved⟩ := bind_eq_ok.mp reserved
  obtain ⟨_, lengths, reserved⟩ := bind_eq_ok.mp reserved
  have lengths := py_assert_eq_ok.mp lengths
  cases reserved
  obtain ⟨_, _, allocating⟩ := bind_eq_ok.mp allocating
  cases allocating
  refine ⟨rfl, ?_⟩
  generalize List.range' _ _ ++ _ = blockIds at lengths ⊢
  have entries : keysToStore.zip (blockIds.map BlockStatus.new) =
      (keysToStore.zip blockIds).map fun entry => (entry.1, BlockStatus.new entry.2) := by
    rw [List.zip_map_right]
    rfl
  have listed : (keysToStore.zip blockIds).map Prod.fst = keysToStore :=
    List.map_fst_zip (by rw [List.length_map] at lengths; omega)
  obtain ⟨inv, get⟩ := BatchInserting.insert_batch lawful (keysToStore.zip blockIds)
    fun entry member => fresh entry.1 (List.of_mem_zip member).1
  rw [listed] at get
  unfold Lawful CPUOffloadingManager.get CPUOffloadingManager.addWritePending
    CPUOffloadingManager.insertBlocks
  dsimp only
  rw [entries, List.foldl_map]
  exact ⟨inv, get⟩

/-- Only the keys of the answer start to wait. -/
theorem prepare_store_pending {keys : List OffloadKey} {bypassThreshold : Bool}
    {output : Option PrepareStoreOutput} (lawful : Lawful primary)
    (prepared : primary.prepareStore keys bypassThreshold = .ok (output, after)) :
    Lawful after ∧ ∀ other, Pending after other →
      (∃ accepted, output = some accepted ∧ other ∈ accepted.keysToStore) ∨
        ((∀ accepted, output = some accepted → other ∉ accepted.keysToStore) ∧
          Pending primary other) := by
  obtain ⟨gateSame, _⟩ := gate_keys_spec primary keys bypassThreshold
  unfold CPUOffloadingManager.prepareStore at prepared
  generalize primary.gateKeys keys bypassThreshold = gated at prepared gateSame
  obtain ⟨passing, gate⟩ := gated
  obtain ⟨gateLawful, gateGet⟩ := same_pool_lawful gateSame lawful
  dsimp only at prepared
  split at prepared
  · cases prepared
    refine ⟨gateLawful, fun other waiting => .inr ⟨?_, (pending_congr (gateGet other)).mp waiting⟩⟩
    rintro accepted ⟨⟩
    exact List.not_mem_nil
  · obtain ⟨⟨evicted, room⟩, made, prepared⟩ := bind_eq_ok.mp prepared
    obtain ⟨roomLawful, roomGet⟩ := make_room_pending (by exact gateLawful) made
    have roomGet : ∀ other, room.get other = primary.get other ∨ room.get other = none := by
      intro other
      rw [← gateGet]
      exact roomGet other
    have kept : ∀ other, Pending room other → Pending primary other := by
      intro other waiting
      rcases roomGet other with same | gone
      · exact (pending_congr same).mp waiting
      · obtain ⟨block, found, _⟩ := (pending_iff other).mp waiting
        rw [gone] at found
        cases found
    cases evicted with
    | none =>
        cases prepared
        exact ⟨roomLawful, fun other waiting => .inr ⟨nofun, kept other waiting⟩⟩
    | some toEvict =>
        obtain ⟨⟨reserved, last⟩, reserving, prepared⟩ := bind_eq_ok.mp prepared
        cases prepared
        obtain ⟨notedLawful, notedGet⟩ :=
          same_pool_lawful (note_evicted_same room toEvict) roomLawful
        have fresh : ∀ key ∈ passing.filter (fun key => (gate.get key).isNone),
            (room.noteEvicted toEvict).get key = none := by
          intro key member
          have absent : gate.get key = none := by simpa using (List.mem_filter.mp member).2
          rw [notedGet]
          rcases roomGet key with same | gone
          · rw [same, ← gateGet, absent]
          · exact gone
        obtain ⟨listed, lastLawful, lastGet⟩ :=
          reserve_blocks_pending notedLawful fresh reserving
        refine ⟨lastLawful, fun other waiting => ?_⟩
        by_cases member : other ∈ reserved.keysToStore
        · exact .inl ⟨reserved, rfl, member⟩
        · refine .inr ⟨?_, kept other ?_⟩
          · rintro accepted ⟨⟩
            exact member
          · rw [listed] at member
            exact (pending_congr ((lastGet other member).trans (notedGet other))).mp waiting

omit [BatchInserting P] in
theorem reset_cache_pending (primary : CPUOffloadingManager P) :
    Lawful primary.resetCache ∧ ∀ key, ¬Pending primary.resetCache key := by
  refine ⟨LawfulCachePolicy.inv_clear _, fun key waiting => ?_⟩
  obtain ⟨block, found, _⟩ := (pending_iff key).mp waiting
  rw [show primary.resetCache.get key = none from LawfulCachePolicy.get_clear _ key] at found
  cases found

end KvOffload.PendingBlocks
