import KvOffload.CpuHistories
import KvOffload.LruPolicy

/-!
# Eviction tombstones

The registry holds block hashes, and keys of several groups share a hash: an eviction of
any of them enters it, a store of any of them clears it. Over a log of the evicted and the
stored keys, the registry is what the last mark of a hash says.
-/

namespace KvOffload.EvictionTombstones

open KvOffload KvOffload.Base KvOffload.PolicyInterface KvOffload.CpuManager
open KvOffload.CpuManager.CPUOffloadingManager KvOffload.EventRuns KvOffload.CpuHistories

set_option autoImplicit false

/-! ## Marks -/

/-- A key that `prepare_store` evicted or that `complete_store` published. -/
inductive Mark where
  | evicted (key : OffloadKey)
  | stored (key : OffloadKey)
  deriving DecidableEq, Repr

/-- A key with the hash was evicted, and none with the hash was stored since. -/
def Residue (marks : List Mark) (blockHash : BlockHash) : Prop :=
  ∃ (index : Nat) (key : OffloadKey), marks[index]? = some (Mark.evicted key) ∧ getOffloadBlockHash key = blockHash ∧
    ∀ later > index, ∀ other, marks[later]? = some (Mark.stored other) →
      getOffloadBlockHash other ≠ blockHash

/-- A key with the hash was evicted, and this key was not stored since. -/
def KeyResidue (marks : List Mark) (blockHash : BlockHash) : Prop :=
  ∃ (index : Nat) (key : OffloadKey), marks[index]? = some (Mark.evicted key) ∧ getOffloadBlockHash key = blockHash ∧
    ∀ later > index, marks[later]? ≠ some (Mark.stored key)

theorem not_residue_nil (blockHash : BlockHash) : ¬ Residue [] blockHash := by
  rintro ⟨index, key, found, _⟩
  cases found

theorem concat_mark {marks : List Mark} {index : Nat} {last mark : Mark} :
    (marks ++ [last])[index]? = some mark ↔
      marks[index]? = some mark ∨ index = marks.length ∧ mark = last := by
  rcases Nat.lt_trichotomy index marks.length with before | rfl | after
  · rw [List.getElem?_append_left before]
    constructor
    · exact Or.inl
    · rintro (found | ⟨same, _⟩)
      · exact found
      · omega
  · simp [eq_comm]
  · rw [List.getElem?_eq_none (by simp; omega), List.getElem?_eq_none (Nat.le_of_lt after)]
    simp
    omega

theorem residue_concat_evicted (marks : List Mark) (key : OffloadKey) (blockHash : BlockHash) :
    Residue (marks ++ [.evicted key]) blockHash ↔
      Residue marks blockHash ∨ getOffloadBlockHash key = blockHash := by
  constructor
  · rintro ⟨index, evicted, found, hash, since⟩
    rcases concat_mark.mp found with found | ⟨_, last⟩
    · left
      refine ⟨index, evicted, found, hash, ?_⟩
      intro later greater other stored
      exact since later greater other (concat_mark.mpr (.inl stored))
    · right
      cases last
      exact hash
  · rintro (⟨index, evicted, found, hash, since⟩ | hash)
    · refine ⟨index, evicted, concat_mark.mpr (.inl found), hash, ?_⟩
      intro later greater other stored
      rcases concat_mark.mp stored with stored | ⟨_, last⟩
      · exact since later greater other stored
      · cases last
    · refine ⟨marks.length, key, concat_mark.mpr (.inr ⟨rfl, rfl⟩), hash, ?_⟩
      intro later greater other stored
      obtain ⟨within, _⟩ := List.getElem?_eq_some_iff.mp stored
      rw [List.length_append, List.length_singleton] at within
      omega

theorem residue_concat_stored (marks : List Mark) (key : OffloadKey) (blockHash : BlockHash) :
    Residue (marks ++ [.stored key]) blockHash ↔
      Residue marks blockHash ∧ getOffloadBlockHash key ≠ blockHash := by
  constructor
  · rintro ⟨index, evicted, found, hash, since⟩
    rcases concat_mark.mp found with found | ⟨_, last⟩
    · obtain ⟨within, _⟩ := List.getElem?_eq_some_iff.mp found
      constructor
      · refine ⟨index, evicted, found, hash, ?_⟩
        intro later greater other stored
        exact since later greater other (concat_mark.mpr (.inl stored))
      · exact since marks.length within key (concat_mark.mpr (.inr ⟨rfl, rfl⟩))
    · cases last
  · rintro ⟨⟨index, evicted, found, hash, since⟩, different⟩
    refine ⟨index, evicted, concat_mark.mpr (.inl found), hash, ?_⟩
    intro later greater other stored
    rcases concat_mark.mp stored with stored | ⟨_, last⟩
    · exact since later greater other stored
    · cases last
      exact different

theorem residue_append_evicted (keys : List OffloadKey) (marks : List Mark)
    (blockHash : BlockHash) : Residue (marks ++ keys.map .evicted) blockHash ↔
      Residue marks blockHash ∨ blockHash ∈ keys.map getOffloadBlockHash := by
  induction keys generalizing marks with
  | nil => simp
  | cons key rest ih =>
      have split : marks ++ (key :: rest).map Mark.evicted =
          (marks ++ [.evicted key]) ++ rest.map Mark.evicted := by simp
      rw [split, ih, residue_concat_evicted, List.map_cons, List.mem_cons, or_assoc]
      simp only [eq_comm]

theorem residue_append_stored (keys : List OffloadKey) (marks : List Mark)
    (blockHash : BlockHash) : Residue (marks ++ keys.map .stored) blockHash ↔
      Residue marks blockHash ∧ blockHash ∉ keys.map getOffloadBlockHash := by
  induction keys generalizing marks with
  | nil => simp
  | cons key rest ih =>
      have split : marks ++ (key :: rest).map Mark.stored =
          (marks ++ [.stored key]) ++ rest.map Mark.stored := by simp
      rw [split, ih, residue_concat_stored, List.map_cons, List.mem_cons, not_or, and_assoc]
      simp only [ne_eq, eq_comm]

/-! ## The registry -/

/-- The registry, its capacity and the count of the hashes that aged out. -/
structure Registry where
  tombstones : Option (OrderedMap BlockHash Unit)
  capacity : Nat
  overflows : Nat

namespace Registry

def size (registry : Registry) : Nat := registry.tombstones.elim 0 OrderedMap.size

def has (registry : Registry) (blockHash : BlockHash) : Bool :=
  registry.tombstones.any fun registered => registered.contains blockHash

def record (registry : Registry) (blockHashes : List BlockHash) : Registry :=
  match registry.tombstones with
  | none => registry
  | some tombstones =>
      let recorded := blockHashes.foldl (recordTombstone registry.capacity) (tombstones, 0)
      ⟨some recorded.1, registry.capacity, registry.overflows + recorded.2⟩

def eraseHashes (keys : List OffloadKey) (tombstones : OrderedMap BlockHash Unit) :
    OrderedMap BlockHash Unit :=
  keys.foldl (fun tombstones key => tombstones.erase (getOffloadBlockHash key)) tombstones

def clear (registry : Registry) (keys : List OffloadKey) : Registry :=
  { registry with tombstones := registry.tombstones.map (eraseHashes keys) }

/-- Enabled exactly with a capacity, and not over it. -/
structure Sound (registry : Registry) : Prop where
  enabled : registry.tombstones.isSome = true ↔ 0 < registry.capacity
  bounded : registry.size ≤ registry.capacity

theorem record_nil (registry : Registry) : registry.record [] = registry := by
  obtain ⟨tombstones, capacity, overflows⟩ := registry
  cases tombstones <;> rfl

/-- One hash: without an overflow it is entered, and the capacity holds. -/
theorem record_tombstone_exact (capacity overflows : Nat) (blockHash : BlockHash)
    {tombstones : OrderedMap BlockHash Unit} (bounded : tombstones.size ≤ capacity) :
    (recordTombstone capacity (tombstones, overflows) blockHash).1.size ≤ capacity ∧
      overflows ≤ (recordTombstone capacity (tombstones, overflows) blockHash).2 ∧
      ((recordTombstone capacity (tombstones, overflows) blockHash).2 = overflows → ∀ other,
        (recordTombstone capacity (tombstones, overflows) blockHash).1.contains other = true ↔
          tombstones.contains other = true ∨ other = blockHash) := by
  unfold recordTombstone
  split
  · rename_i present
    refine ⟨bounded, le_rfl, ?_⟩
    intro _ other
    constructor
    · exact Or.inl
    · rintro (found | rfl)
      · exact found
      · exact present
  · refine ⟨?_, Nat.le_add_right _ _, ?_⟩
    · rw [OrderedMap.size_drop_oldest]
      omega
    · intro fits other
      have none : (tombstones.set blockHash ()).size - capacity = 0 := by
        simpa using fits
      have whole : ((tombstones.set blockHash ()).dropOldest 0) = tombstones.set blockHash () := by
        apply OrderedMap.ext_entries
        rfl
      simp only [none, whole]
      unfold OrderedMap.contains
      rw [OrderedMap.get_set]
      by_cases same : other = blockHash <;> simp [same]

theorem record_tombstones_exact (capacity : Nat) (blockHashes : List BlockHash)
    (tombstones : OrderedMap BlockHash Unit) (overflows : Nat)
    (bounded : tombstones.size ≤ capacity) :
    (blockHashes.foldl (recordTombstone capacity) (tombstones, overflows)).1.size ≤ capacity ∧
      overflows ≤ (blockHashes.foldl (recordTombstone capacity) (tombstones, overflows)).2 ∧
      ((blockHashes.foldl (recordTombstone capacity) (tombstones, overflows)).2 = overflows →
        ∀ other, (blockHashes.foldl (recordTombstone capacity)
          (tombstones, overflows)).1.contains other = true ↔
            tombstones.contains other = true ∨ other ∈ blockHashes) := by
  induction blockHashes generalizing tombstones overflows with
  | nil => simp [bounded]
  | cons blockHash rest ih =>
      obtain ⟨size, more, entered⟩ :=
        record_tombstone_exact capacity overflows blockHash bounded
      obtain ⟨restSize, restMore, restEntered⟩ := ih _
        (recordTombstone capacity (tombstones, overflows) blockHash).2 size
      refine ⟨restSize, more.trans restMore, ?_⟩
      intro same other
      rw [List.foldl_cons] at same ⊢
      have kept : (recordTombstone capacity (tombstones, overflows) blockHash).2 = overflows :=
        le_antisymm (restMore.trans (le_of_eq same)) more
      rw [restEntered (same.trans kept.symm), entered kept, List.mem_cons, or_assoc]

theorem record_exact {registry : Registry} (sound : registry.Sound)
    (blockHashes : List BlockHash) :
    (registry.record blockHashes).Sound ∧
      (registry.record blockHashes).capacity = registry.capacity ∧
      registry.overflows ≤ (registry.record blockHashes).overflows ∧
      ((registry.record blockHashes).overflows = registry.overflows → ∀ other,
        (registry.record blockHashes).has other = true ↔
          registry.has other = true ∨ 0 < registry.capacity ∧ other ∈ blockHashes) := by
  obtain ⟨tombstones, capacity, overflows⟩ := registry
  obtain ⟨enabled, bounded⟩ := sound
  cases tombstones with
  | none =>
      have disabled : ¬ 0 < capacity := fun positive => absurd (enabled.mpr positive) (by simp)
      refine ⟨⟨enabled, bounded⟩, rfl, le_rfl, ?_⟩
      intro _ other
      simp [record, has, disabled]
  | some tombstones =>
      obtain ⟨size, more, entered⟩ :=
        record_tombstones_exact capacity blockHashes tombstones 0 bounded
      refine ⟨⟨enabled, size⟩, rfl, Nat.le_add_right _ _, ?_⟩
      intro same other
      have positive : 0 < capacity := enabled.mp rfl
      have kept := entered (by simpa [record] using same)
      simpa [record, has, positive] using kept other

theorem clear_contains (keys : List OffloadKey) (tombstones : OrderedMap BlockHash Unit)
    (other : BlockHash) :
    (eraseHashes keys tombstones).contains other = true ↔
      tombstones.contains other = true ∧ other ∉ keys.map getOffloadBlockHash := by
  induction keys generalizing tombstones with
  | nil => simp [eraseHashes]
  | cons key rest ih =>
      have later := ih (tombstones.erase (getOffloadBlockHash key))
      simp only [eraseHashes] at later ⊢
      rw [List.foldl_cons, later, List.map_cons, List.mem_cons, not_or]
      unfold OrderedMap.contains
      rw [OrderedMap.get_erase]
      by_cases same : other = getOffloadBlockHash key <;> simp [same]

theorem clear_size_le (keys : List OffloadKey) (tombstones : OrderedMap BlockHash Unit) :
    (eraseHashes keys tombstones).size ≤ tombstones.size := by
  induction keys generalizing tombstones with
  | nil => exact le_rfl
  | cons key rest ih =>
      exact (ih (tombstones.erase (getOffloadBlockHash key))).trans
        (tombstones.size_erase_le (getOffloadBlockHash key))

theorem clear_exact {registry : Registry} (sound : registry.Sound) (keys : List OffloadKey) :
    (registry.clear keys).Sound ∧ ∀ other, (registry.clear keys).has other = true ↔
      registry.has other = true ∧ other ∉ keys.map getOffloadBlockHash := by
  obtain ⟨tombstones, capacity, overflows⟩ := registry
  obtain ⟨enabled, bounded⟩ := sound
  cases tombstones with
  | none =>
      refine ⟨⟨enabled, bounded⟩, ?_⟩
      intro other
      simp [clear, has]
  | some tombstones =>
      refine ⟨⟨enabled, (clear_size_le keys tombstones).trans bounded⟩, ?_⟩
      intro other
      simpa [clear, has] using clear_contains keys tombstones other

end Registry

section Frames

variable {P : Type}

def registryOf (manager : CPUOffloadingManager P) : Registry :=
  ⟨manager.evictionTombstones, manager.evictionTombstoneCapacity,
    manager.evictionTombstoneOverflowsTotal⟩

theorem registry_emit (manager : CPUOffloadingManager P) (keys : List OffloadKey)
    (removed : Bool) : registryOf (manager.emit keys removed) = registryOf manager := by
  unfold CPUOffloadingManager.emit
  split <;> rfl

theorem registry_free_victims (victims : Victims) (manager : CPUOffloadingManager P) :
    registryOf (manager.freeVictims victims) = registryOf manager := by
  unfold CPUOffloadingManager.freeVictims
  induction victims generalizing manager with
  | nil => rfl
  | cons victim rest ih => exact ih (manager.freeBlock victim.2)

theorem registry_cap_eviction (manager : CPUOffloadingManager P) (requested : Int) :
    registryOf (manager.capEviction requested).2 = registryOf manager := by
  unfold CPUOffloadingManager.capEviction
  split <;> rfl

theorem registry_take_events (manager : CPUOffloadingManager P) :
    registryOf manager.takeEvents.2 = registryOf manager := by
  unfold CPUOffloadingManager.takeEvents
  split <;> rfl

theorem registry_gate_keys (manager : CPUOffloadingManager P) (keys : List OffloadKey)
    (bypassThreshold : Bool) :
    registryOf (manager.gateKeys keys bypassThreshold).2 = registryOf manager := by
  unfold CPUOffloadingManager.gateKeys
  split
  · rfl
  · split <;> rfl

theorem registry_count_lookup {manager after : CPUOffloadingManager P} {key : OffloadKey}
    (counted : manager.countLookup key = .ok after) : registryOf after = registryOf manager := by
  unfold CPUOffloadingManager.countLookup at counted
  split at counted
  · cases counted
    rfl
  · split at counted
    · cases counted
      rfl
    · obtain ⟨_, _, done⟩ := bind_eq_ok.mp counted
      cases done
      rfl

theorem registry_note_evicted (manager : CPUOffloadingManager P) (toEvict : List OffloadKey) :
    registryOf (manager.noteEvicted toEvict) =
      (registryOf manager).record (toEvict.map getOffloadBlockHash) := by
  unfold CPUOffloadingManager.noteEvicted
  split
  · rename_i nothing
    rw [nothing, List.map_nil, Registry.record_nil]
  · rw [registry_emit]
    unfold CPUOffloadingManager.recordEvictionTombstones Registry.record registryOf
    cases registered : manager.evictionTombstones <;> simp

variable [CachePolicy P]

theorem registry_lookup {manager after : CPUOffloadingManager P} {key : OffloadKey}
    {result : LookupResult} (looked : manager.lookup key = .ok (result, after)) :
    registryOf after = registryOf manager := by
  obtain ⟨counted, counts, done⟩ := bind_eq_ok.mp looked
  cases done
  exact registry_count_lookup counts

theorem registry_pin_block {manager after : CPUOffloadingManager P} {key : OffloadKey}
    {blockId : Nat} (pinned : manager.pinBlock key = .ok (blockId, after)) :
    registryOf after = registryOf manager := by
  unfold CPUOffloadingManager.pinBlock at pinned
  split at pinned
  · cases pinned
  · obtain ⟨_, _, pinned⟩ := bind_eq_ok.mp pinned
    dsimp only at pinned
    split at pinned
    · obtain ⟨_, _, pinned⟩ := bind_eq_ok.mp pinned
      obtain ⟨_, _, pinned⟩ := bind_eq_ok.mp pinned
      cases pinned
      rfl
    · cases pinned
      rfl

theorem registry_prepare_load (keys : List OffloadKey) {manager after : CPUOffloadingManager P}
    {blockIds : List Nat} (prepared : manager.prepareLoad keys = .ok (blockIds, after)) :
    registryOf after = registryOf manager := by
  induction keys generalizing manager blockIds with
  | nil =>
      cases prepared
      rfl
  | cons key rest ih =>
      obtain ⟨⟨blockId, middle⟩, pinned, prepared⟩ := bind_eq_ok.mp prepared
      obtain ⟨⟨others, last⟩, later, done⟩ := bind_eq_ok.mp prepared
      cases done
      rw [ih later, registry_pin_block pinned]

theorem registry_unpin_block {manager after : CPUOffloadingManager P} {key : OffloadKey}
    (unpinned : manager.unpinBlock key = .ok after) : registryOf after = registryOf manager := by
  unfold CPUOffloadingManager.unpinBlock at unpinned
  split at unpinned
  · cases unpinned
  · obtain ⟨_, _, unpinned⟩ := bind_eq_ok.mp unpinned
    dsimp only at unpinned
    split at unpinned
    · cases unpinned
      rfl
    · cases unpinned
      rfl

theorem registry_complete_load (keys : List OffloadKey) {manager after : CPUOffloadingManager P}
    (completed : manager.completeLoad keys = .ok after) :
    registryOf after = registryOf manager := by
  induction keys generalizing manager with
  | nil =>
      cases completed
      rfl
  | cons key rest ih =>
      obtain ⟨middle, unpinned, later⟩ := bind_eq_ok.mp completed
      rw [ih later, registry_unpin_block unpinned]

theorem registry_make_room {manager after : CPUOffloadingManager P} {keys : List OffloadKey}
    {numToStore : Nat} {evicted : Option (List OffloadKey)}
    (made : manager.makeRoom keys numToStore = .ok (evicted, after)) :
    registryOf after = registryOf manager := by
  unfold CPUOffloadingManager.makeRoom at made
  dsimp only at made
  split at made
  · split at made
    · cases made
      exact registry_cap_eviction manager _
    · obtain ⟨found, _, made⟩ := bind_eq_ok.mp made
      cases found with
      | none =>
          cases made
          exact registry_cap_eviction manager _
      | some found =>
          obtain ⟨_, _, done⟩ := bind_eq_ok.mp made
          cases done
          exact (registry_free_victims _ _).trans (registry_cap_eviction manager _)
  · cases made
    rfl

theorem registry_reserve_blocks {manager after : CPUOffloadingManager P}
    {keysToStore toEvict : List OffloadKey} {output : PrepareStoreOutput}
    (reserved : manager.reserveBlocks keysToStore toEvict = .ok (output, after)) :
    output.evictedKeys = toEvict ∧ registryOf after = registryOf manager := by
  obtain ⟨⟨blocks, allocated⟩, allocates, reserved⟩ := bind_eq_ok.mp reserved
  obtain ⟨_, _, done⟩ := bind_eq_ok.mp reserved
  obtain ⟨_, _, made⟩ := bind_eq_ok.mp allocates
  cases made
  cases done
  exact ⟨rfl, rfl⟩

theorem registry_publish_blocks (keys : List OffloadKey) (manager : CPUOffloadingManager P) :
    registryOf (manager.publishBlocks keys).2 = registryOf manager := by
  induction keys generalizing manager with
  | nil => rfl
  | cons key rest ih =>
      unfold CPUOffloadingManager.publishBlocks
      split
      · exact ih manager
      · rename_i published publishes
        rw [ih published]
        unfold CPUOffloadingManager.publishBlock at publishes
        split at publishes
        · cases publishes
        · split at publishes
          · cases publishes
          · cases publishes
            rfl

theorem registry_discard_blocks (keys : List OffloadKey) {manager after : CPUOffloadingManager P}
    (discarded : manager.discardBlocks keys = .ok after) :
    registryOf after = registryOf manager := by
  induction keys generalizing manager with
  | nil =>
      cases discarded
      rfl
  | cons key rest ih =>
      obtain ⟨middle, first, later⟩ := bind_eq_ok.mp discarded
      rw [ih later]
      unfold CPUOffloadingManager.discardBlock at first
      split at first
      · cases first
        rfl
      · split at first
        · cases first
          rfl
        · obtain ⟨_, _, done⟩ := bind_eq_ok.mp first
          cases done
          rfl

theorem registry_reset_cache (manager : CPUOffloadingManager P) :
    registryOf manager.resetCache = registryOf manager := by
  have chunks : ∀ (keys : List (List OffloadKey)) (manager : CPUOffloadingManager P),
      registryOf (keys.foldl (fun manager chunk => manager.emit chunk true) manager) =
        registryOf manager := by
    intro keys
    induction keys with
    | nil => exact fun _ => rfl
    | cons chunk rest ih =>
        intro manager
        rw [List.foldl_cons, ih, registry_emit]
  exact chunks _ manager

/-- The keys that a call of `prepare_store` says it evicted. -/
def evictedKeys (output : Option PrepareStoreOutput) : List OffloadKey :=
  output.elim [] PrepareStoreOutput.evictedKeys

/-- A call of `prepare_store` enters the hashes of the keys it evicts. -/
theorem registry_prepare_store {manager after : CPUOffloadingManager P} {keys : List OffloadKey}
    {bypassThreshold : Bool} {output : Option PrepareStoreOutput}
    (prepared : manager.prepareStore keys bypassThreshold = .ok (output, after)) :
    registryOf after =
      (registryOf manager).record ((evictedKeys output).map getOffloadBlockHash) := by
  have gated := registry_gate_keys manager keys bypassThreshold
  unfold CPUOffloadingManager.prepareStore at prepared
  dsimp only at prepared
  split at prepared
  · cases prepared
    rw [gated]
    exact (Registry.record_nil _).symm
  · obtain ⟨⟨evicted, roomy⟩, made, prepared⟩ := bind_eq_ok.mp prepared
    have room := (registry_make_room made).trans gated
    cases evicted with
    | none =>
        cases prepared
        rw [room]
        exact (Registry.record_nil _).symm
    | some toEvict =>
        obtain ⟨⟨stored, reserved⟩, reserves, done⟩ := bind_eq_ok.mp prepared
        cases done
        obtain ⟨same, frame⟩ := registry_reserve_blocks reserves
        rw [frame, registry_note_evicted, room]
        simp [evictedKeys, same]

theorem registry_complete_store {manager after : CPUOffloadingManager P} {keys : List OffloadKey}
    {success : Bool} (completed : manager.completeStore keys success = .ok after) :
    registryOf after = (registryOf manager).clear
      (if success then (manager.publishBlocks keys).1 else []) := by
  have unchanged : ∀ registry : Registry, registry.clear [] = registry := by
    rintro ⟨tombstones, capacity, overflows⟩
    cases tombstones with
    | none => rfl
    | some tombstones => simp [Registry.clear, Registry.eraseHashes]
  unfold CPUOffloadingManager.completeStore at completed
  split at completed
  · rename_i succeeded
    have published := registry_publish_blocks keys manager
    dsimp only at completed
    rw [if_pos succeeded]
    split at completed
    · rename_i nothing
      cases completed
      rw [published, nothing, unchanged]
    · cases completed
      rw [registry_emit, ← published]
      unfold CPUOffloadingManager.clearTombstones Registry.clear registryOf
      cases registered : (manager.publishBlocks keys).2.evictionTombstones with
      | none => simp [registered]
      | some tombstones =>
          simp only [Option.map_some]
          rfl
  · rename_i failed
    rw [if_neg failed, unchanged]
    exact registry_discard_blocks keys completed

end Frames

/-! ## Runs -/

/-- A history with the marks of its evictions and stores. -/
structure MarkedHistory (P : Type) where
  history : CpuHistory P
  marks : List Mark

namespace MarkedHistory

variable {P : Type}

def start (params : CpuManagerParams) (policy : P) : MarkedHistory P :=
  ⟨CpuHistory.start params policy, []⟩

variable [CachePolicy P]

/-- What a call evicts or publishes. -/
def marksOf (manager : CPUOffloadingManager P) : CpuEvent → List Mark
  | .prepareStore keys bypassThreshold =>
      match manager.prepareStore keys bypassThreshold with
      | .ok (output, _) => (evictedKeys output).map .evicted
      | .error _ => []
  | .completeStore keys success =>
      (if success then (manager.publishBlocks keys).1 else []).map .stored
  | _ => []

def apply (marked : MarkedHistory P) (event : CpuEvent) : Except PyError (MarkedHistory P) := do
  let after ← marked.history.apply event
  .ok ⟨after, marked.marks ++ marksOf marked.history.manager event⟩

def Reached (params : CpuManagerParams) (policy : P) (marked : MarkedHistory P) : Prop :=
  Reaches apply (fun _ _ => True) (start params policy) marked

end MarkedHistory

section Runs

variable {P : Type}

/-- What every call keeps: after an overflow nothing is said of the hashes. -/
structure TombstoneInv (params : CpuManagerParams) (marked : MarkedHistory P) : Prop where
  sound : (registryOf marked.history.manager).Sound
  capacity : (registryOf marked.history.manager).capacity = params.evictionTombstoneCapacity
  exact : (registryOf marked.history.manager).overflows = 0 → ∀ blockHash,
    (registryOf marked.history.manager).has blockHash = true ↔
      0 < params.evictionTombstoneCapacity ∧ Residue marked.marks blockHash

theorem silent_call_keeps {params : CpuManagerParams} {marked after : MarkedHistory P}
    (inv : TombstoneInv params marked)
    (same : registryOf after.history.manager = registryOf marked.history.manager)
    (silent : after.marks = marked.marks) : TombstoneInv params after := by
  constructor
  · rw [same]
    exact inv.sound
  · rw [same]
    exact inv.capacity
  · rw [same, silent]
    exact inv.exact

theorem evictions_keep {params : CpuManagerParams} {marked after : MarkedHistory P}
    {keys : List OffloadKey} (inv : TombstoneInv params marked)
    (recorded : registryOf after.history.manager =
      (registryOf marked.history.manager).record (keys.map getOffloadBlockHash))
    (noted : after.marks = marked.marks ++ keys.map .evicted) : TombstoneInv params after := by
  obtain ⟨sound, capacity, more, entered⟩ :=
    Registry.record_exact inv.sound (keys.map getOffloadBlockHash)
  rw [← recorded] at sound capacity more entered
  refine ⟨sound, capacity.trans inv.capacity, ?_⟩
  intro fits blockHash
  have before : (registryOf marked.history.manager).overflows = 0 :=
    Nat.eq_zero_of_le_zero (more.trans (le_of_eq fits))
  rw [entered (fits.trans before.symm), inv.exact before, noted, residue_append_evicted,
    inv.capacity, ← and_or_left]

theorem stores_keep {params : CpuManagerParams} {marked after : MarkedHistory P}
    {keys : List OffloadKey} (inv : TombstoneInv params marked)
    (cleared : registryOf after.history.manager =
      (registryOf marked.history.manager).clear keys)
    (noted : after.marks = marked.marks ++ keys.map .stored) : TombstoneInv params after := by
  obtain ⟨sound, left⟩ := Registry.clear_exact inv.sound keys
  rw [← cleared] at sound left
  have overflows : (registryOf after.history.manager).overflows =
      (registryOf marked.history.manager).overflows := by
    rw [cleared]
    rfl
  refine ⟨sound, ?_, ?_⟩
  · rw [cleared]
    exact inv.capacity
  · intro fits blockHash
    rw [left, inv.exact (overflows.symm.trans fits), noted, residue_append_stored, and_assoc]

theorem start_tombstones (params : CpuManagerParams) (policy : P) :
    TombstoneInv params (MarkedHistory.start params policy) := by
  have enabled : (registryOf (MarkedHistory.start params policy).history.manager).tombstones =
      if 0 < params.evictionTombstoneCapacity then some OrderedMap.empty else none := rfl
  refine ⟨⟨?_, ?_⟩, rfl, ?_⟩
  · rw [enabled]
    split
    · rename_i positive
      exact iff_of_true rfl positive
    · rename_i zero
      exact iff_of_false Bool.false_ne_true zero
  · rw [Registry.size, enabled]
    split
    · exact Nat.zero_le _
    · exact Nat.zero_le _
  · intro _ blockHash
    apply iff_of_false
    · rw [Registry.has, enabled]
      split
      · simp [OrderedMap.contains]
      · exact Bool.false_ne_true
    · rintro ⟨_, residue⟩
      exact not_residue_nil blockHash residue

variable [CachePolicy P]

theorem apply_keeps_tombstones {params : CpuManagerParams} {marked after : MarkedHistory P}
    {event : CpuEvent} (inv : TombstoneInv params marked)
    (applied : marked.apply event = .ok after) : TombstoneInv params after := by
  obtain ⟨history, called, done⟩ := bind_eq_ok.mp applied
  cases done
  cases event with
  | lookup key =>
      obtain ⟨⟨result, manager⟩, looked, done⟩ := bind_eq_ok.mp called
      cases done
      exact silent_call_keeps inv (registry_lookup looked) (List.append_nil _)
  | touch keys =>
      cases called
      exact silent_call_keeps inv rfl (List.append_nil _)
  | prepareStore keys bypassThreshold =>
      obtain ⟨⟨output, manager⟩, prepared, done⟩ := bind_eq_ok.mp called
      cases done
      apply evictions_keep inv (registry_prepare_store prepared)
      simp only [MarkedHistory.marksOf, prepared]
  | completeStore keys success =>
      obtain ⟨manager, completed, done⟩ := bind_eq_ok.mp called
      cases done
      exact stores_keep inv (registry_complete_store completed) rfl
  | prepareLoad keys =>
      obtain ⟨⟨blockIds, manager⟩, prepared, done⟩ := bind_eq_ok.mp called
      cases done
      exact silent_call_keeps inv (registry_prepare_load keys prepared) (List.append_nil _)
  | completeLoad keys =>
      obtain ⟨manager, completed, done⟩ := bind_eq_ok.mp called
      cases done
      exact silent_call_keeps inv (registry_complete_load keys completed) (List.append_nil _)
  | resetCache =>
      cases called
      exact silent_call_keeps inv (registry_reset_cache _) (List.append_nil _)
  | takeEvents =>
      cases called
      exact silent_call_keeps inv (registry_take_events _) (List.append_nil _)

end Runs

/-- In every run of the manager with any policy the registry keeps to its capacity, and
while no hash aged out, an enabled registry holds a hash exactly when a key with it was
evicted after the last store of any key with it. -/
theorem tombstones_exact {P : Type} [CachePolicy P] {params : CpuManagerParams} {policy : P}
    {marked : MarkedHistory P} (reached : MarkedHistory.Reached params policy marked) :
    (registryOf marked.history.manager).size ≤ params.evictionTombstoneCapacity ∧
      (marked.history.manager.evictionTombstoneOverflowsTotal = 0 → ∀ blockHash,
        marked.history.manager.hasEvictionTombstone blockHash = true ↔
          0 < params.evictionTombstoneCapacity ∧ Residue marked.marks blockHash) := by
  have inv : TombstoneInv params marked :=
    reaches_invariant (fun _ _ _ inv _ applied => apply_keeps_tombstones inv applied)
      (start_tombstones params policy) reached
  have probe : ∀ blockHash, marked.history.manager.hasEvictionTombstone blockHash =
      (registryOf marked.history.manager).has blockHash := by
    intro blockHash
    unfold hasEvictionTombstone Registry.has registryOf
    cases marked.history.manager.evictionTombstones <;> rfl
  constructor
  · rw [← inv.capacity]
    exact inv.sound.bounded
  · intro fits blockHash
    rw [probe]
    exact inv.exact fits blockHash

/-- The only block changes its key: the hash of the old one is a tombstone. -/
theorem evicted_key_entombed : ∃ marked : MarkedHistory LruPolicy.LRUCachePolicy,
    marked.history.manager.hasEvictionTombstone [7] = true ∧ Residue marked.marks [7] := by
  have replayed : (EventRuns.replay MarkedHistory.apply (fun _ _ => True)
      (MarkedHistory.start { numBlocks := 1 } (LruPolicy.LRUCachePolicy.new 1))
      [.prepareStore [⟨[7], 0⟩] false, .completeStore [⟨[7], 0⟩] true,
        .prepareStore [⟨[9], 0⟩] false]).map
      (fun marked => (marked.history.manager.evictionTombstoneOverflowsTotal,
        marked.history.manager.hasEvictionTombstone [7])) = some (0, true) := by
    decide +kernel
  obtain ⟨marked, reached, seen⟩ := EventRuns.exists_of_replay replayed
  obtain ⟨fits, entombed⟩ := Prod.mk.inj seen
  exact ⟨marked, entombed, (((tombstones_exact reached).2 fits [7]).mp entombed).2⟩

/-- Two keys share a hash and both are evicted: storing one of them again clears the
tombstone of both. Without a capacity there is no registry. -/
theorem key_residue_without_tombstone :
    (∃ marked : MarkedHistory LruPolicy.LRUCachePolicy,
      MarkedHistory.Reached { numBlocks := 2 } (LruPolicy.LRUCachePolicy.new 2) marked ∧
        marked.history.manager.evictionTombstoneOverflowsTotal = 0 ∧
        KeyResidue marked.marks [7] ∧
        marked.history.manager.hasEvictionTombstone [7] = false) ∧
    ∃ marked : MarkedHistory LruPolicy.LRUCachePolicy,
      MarkedHistory.Reached { numBlocks := 1, evictionTombstoneCapacity := 0 }
          (LruPolicy.LRUCachePolicy.new 1) marked ∧
        marked.history.manager.evictionTombstoneOverflowsTotal = 0 ∧
        KeyResidue marked.marks [7] ∧
        marked.history.manager.hasEvictionTombstone [7] = false := by
  constructor
  · have replayed : (EventRuns.replay MarkedHistory.apply (fun _ _ => True)
        (MarkedHistory.start { numBlocks := 2 } (LruPolicy.LRUCachePolicy.new 2))
        [.prepareStore [⟨[7], 0⟩, ⟨[7], 1⟩] false, .completeStore [⟨[7], 0⟩, ⟨[7], 1⟩] true,
          .prepareStore [⟨[8], 0⟩, ⟨[9], 0⟩] false, .completeStore [⟨[8], 0⟩, ⟨[9], 0⟩] true,
          .prepareStore [⟨[7], 0⟩] false, .completeStore [⟨[7], 0⟩] true]).map
        (fun marked => (marked.history.manager.evictionTombstoneOverflowsTotal,
          marked.history.manager.hasEvictionTombstone [7], marked.marks)) =
          some (0, false, [.stored ⟨[7], 0⟩, .stored ⟨[7], 1⟩, .evicted ⟨[7], 0⟩,
            .evicted ⟨[7], 1⟩, .stored ⟨[8], 0⟩, .stored ⟨[9], 0⟩, .evicted ⟨[8], 0⟩,
            .stored ⟨[7], 0⟩]) := by
      decide +kernel
    obtain ⟨marked, reached, seen⟩ := EventRuns.exists_of_replay replayed
    simp only [Prod.mk.injEq] at seen
    obtain ⟨fits, cleared, marks⟩ := seen
    refine ⟨marked, reached, fits, ⟨3, ⟨[7], 1⟩, by rw [marks]; rfl, rfl, ?_⟩, cleared⟩
    intro later greater stored
    rw [marks] at stored
    obtain ⟨within, _⟩ := List.getElem?_eq_some_iff.mp stored
    have within : later < 8 := within
    interval_cases later <;> simp at stored
  · have replayed : (EventRuns.replay MarkedHistory.apply (fun _ _ => True)
        (MarkedHistory.start { numBlocks := 1, evictionTombstoneCapacity := 0 }
          (LruPolicy.LRUCachePolicy.new 1))
        [.prepareStore [⟨[7], 0⟩] false, .completeStore [⟨[7], 0⟩] true,
          .prepareStore [⟨[9], 0⟩] false]).map
        (fun marked => (marked.history.manager.evictionTombstoneOverflowsTotal,
          marked.history.manager.hasEvictionTombstone [7], marked.marks)) =
          some (0, false, [.stored ⟨[7], 0⟩, .evicted ⟨[7], 0⟩]) := by
      decide +kernel
    obtain ⟨marked, reached, seen⟩ := EventRuns.exists_of_replay replayed
    simp only [Prod.mk.injEq] at seen
    obtain ⟨fits, cleared, marks⟩ := seen
    refine ⟨marked, reached, fits, ⟨1, ⟨[7], 0⟩, by rw [marks]; rfl, rfl, ?_⟩, cleared⟩
    intro later greater stored
    rw [marks] at stored
    obtain ⟨within, _⟩ := List.getElem?_eq_some_iff.mp stored
    have within : later < 2 := within
    omega

end KvOffload.EvictionTombstones
