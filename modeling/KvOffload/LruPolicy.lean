import KvOffload.PolicyInterface

/-!
# LRU policy

`blocks` maps every stored key to its block; `evictableBlocks` orders the idle
ones by last use. The invariant is that the second is exactly the set of keys
whose block has reference count zero.
-/

namespace KvOffload.LruPolicy

open KvOffload KvOffload.Base KvOffload.PolicyInterface

set_option autoImplicit false

structure LRUCachePolicy where
  cacheCapacity : Nat
  evictableBlocks : OrderedMap OffloadKey Unit
  blocks : OrderedMap OffloadKey BlockStatus

namespace LRUCachePolicy

def new (cacheCapacity : Nat) : LRUCachePolicy :=
  ⟨cacheCapacity, OrderedMap.empty, OrderedMap.empty⟩

def insert (policy : LRUCachePolicy) (key : OffloadKey) (block : BlockStatus) :
    LRUCachePolicy :=
  { policy with
    blocks := policy.blocks.set key block
    evictableBlocks :=
      if block.refCnt = 0 then policy.evictableBlocks.set key () else policy.evictableBlocks }

def remove (policy : LRUCachePolicy) (key : OffloadKey) : Except PyError LRUCachePolicy := do
  let _ ← pyItem .cachePolicy (policy.blocks.get? key)
  .ok { policy with
    blocks := policy.blocks.erase key
    evictableBlocks := policy.evictableBlocks.erase key }

def touchKey (policy : LRUCachePolicy) (key : OffloadKey) : LRUCachePolicy :=
  if policy.evictableBlocks.contains key then
    { policy with evictableBlocks := policy.evictableBlocks.moveToEnd key }
  else policy

/-- The batch is walked in reverse, so its first key ends up most recent. -/
def touch (policy : LRUCachePolicy) (keys : List OffloadKey) : LRUCachePolicy :=
  keys.reverse.foldl touchKey policy

/-- The scan of `evictable_blocks`: it stops at the `count`-th candidate. -/
def candidates (blocks : OrderedMap OffloadKey BlockStatus) (guarded : List OffloadKey) :
    Nat → List OffloadKey → Except PyError Victims
  | 0, _ => .ok []
  | _ + 1, [] => .ok []
  | count + 1, key :: rest =>
      if key ∈ guarded then candidates blocks guarded (count + 1) rest
      else do
        let block ← pyItem .cachePolicy (blocks.get? key)
        pyAssert (block.refCnt = 0)
        let found ← candidates blocks guarded count rest
        .ok ((key, block) :: found)

def dropVictim (policy : LRUCachePolicy) (victim : OffloadKey × BlockStatus) :
    LRUCachePolicy :=
  { policy with
    evictableBlocks := policy.evictableBlocks.erase victim.1
    blocks := policy.blocks.erase victim.1 }

def evict (policy : LRUCachePolicy) (count : Nat) (guarded : List OffloadKey) :
    Except PyError (Option (Victims × LRUCachePolicy)) :=
  if count = 0 then .ok (some ([], policy))
  else do
    let found ← candidates policy.blocks guarded count policy.evictableBlocks.keys
    if found.length < count then .ok none
    else .ok (some (found, found.foldl dropVictim policy))

def clear (policy : LRUCachePolicy) : LRUCachePolicy :=
  { policy with evictableBlocks := OrderedMap.empty, blocks := OrderedMap.empty }

def markEvictable (policy : LRUCachePolicy) (key : OffloadKey) : LRUCachePolicy :=
  { policy with evictableBlocks := policy.evictableBlocks.set key () }

def markNonEvictable (policy : LRUCachePolicy) (key : OffloadKey) :
    Except PyError LRUCachePolicy := do
  let _ ← pyItem .cachePolicy (policy.evictableBlocks.get? key)
  .ok { policy with evictableBlocks := policy.evictableBlocks.erase key }

def setRefCnt (policy : LRUCachePolicy) (key : OffloadKey) (refCnt : Int) : LRUCachePolicy :=
  { policy with blocks := policy.blocks.modify key fun block => block.withRefCnt refCnt }

end LRUCachePolicy

instance : CachePolicy LRUCachePolicy where
  get policy key := policy.blocks.get? key
  insert := LRUCachePolicy.insert
  remove := LRUCachePolicy.remove
  touch := LRUCachePolicy.touch
  evict := LRUCachePolicy.evict
  clear := LRUCachePolicy.clear
  storedKeys policy := policy.blocks.keys
  markEvictable := LRUCachePolicy.markEvictable
  markNonEvictable := LRUCachePolicy.markNonEvictable
  setRefCnt := LRUCachePolicy.setRefCnt

/-- The evictable list holds exactly the keys of idle blocks. -/
def EvictableIffIdle (policy : LRUCachePolicy) : Prop :=
  ∀ key, key ∈ policy.evictableBlocks.keys ↔
    ∃ block, policy.blocks.get? key = some block ∧ block.refCnt = 0

theorem touch_key_blocks (policy : LRUCachePolicy) (key : OffloadKey) :
    (policy.touchKey key).blocks = policy.blocks := by
  unfold LRUCachePolicy.touchKey
  split <;> rfl

theorem mem_touch_key_evictable (policy : LRUCachePolicy) (touched key : OffloadKey) :
    key ∈ (policy.touchKey touched).evictableBlocks.keys ↔
      key ∈ policy.evictableBlocks.keys := by
  unfold LRUCachePolicy.touchKey
  split
  · exact OrderedMap.mem_keys_move_to_end ..
  · rfl

theorem touch_frame (keys : List OffloadKey) (policy : LRUCachePolicy) :
    (keys.foldl LRUCachePolicy.touchKey policy).blocks = policy.blocks ∧
      ∀ key, key ∈ (keys.foldl LRUCachePolicy.touchKey policy).evictableBlocks.keys ↔
        key ∈ policy.evictableBlocks.keys := by
  induction keys generalizing policy with
  | nil => simp
  | cons touched rest ih =>
      obtain ⟨blocks, evictable⟩ := ih (policy.touchKey touched)
      refine ⟨blocks.trans (touch_key_blocks policy touched), fun key => ?_⟩
      exact (evictable key).trans (mem_touch_key_evictable policy touched key)

theorem candidates_ok {blocks : OrderedMap OffloadKey BlockStatus} (guarded : List OffloadKey)
    (count : Nat) (scan : List OffloadKey) (nodup : scan.Nodup)
    (idle : ∀ key ∈ scan, ∃ block, blocks.get? key = some block ∧ block.refCnt = 0) :
    ∃ found, LRUCachePolicy.candidates blocks guarded count scan = .ok found ∧
      found.length ≤ count ∧ (found.map Prod.fst).Nodup ∧
      (∀ victim ∈ found, victim.1 ∈ scan) ∧
      (∀ victim ∈ found, blocks.get? victim.1 = some victim.2 ∧ victim.2.refCnt = 0) ∧
      ∀ victim ∈ found, victim.1 ∉ guarded := by
  induction scan generalizing count with
  | nil => cases count <;> exact ⟨[], by simp [LRUCachePolicy.candidates]⟩
  | cons key rest ih =>
      rw [List.nodup_cons] at nodup
      have restIdle : ∀ other ∈ rest, ∃ block, blocks.get? other = some block ∧
          block.refCnt = 0 := fun other member => idle other (List.mem_cons_of_mem _ member)
      cases count with
      | zero => exact ⟨[], by simp [LRUCachePolicy.candidates]⟩
      | succ count =>
          by_cases skip : key ∈ guarded
          · obtain ⟨found, scanned, bound, distinct, inScan, status, free⟩ :=
              ih (count + 1) nodup.2 restIdle
            refine ⟨found, ?_, bound, distinct, fun victim member => ?_, status, free⟩
            · simpa [LRUCachePolicy.candidates, skip] using scanned
            · exact List.mem_cons_of_mem _ (inScan victim member)
          · obtain ⟨found, scanned, bound, distinct, inScan, status, free⟩ :=
              ih count nodup.2 restIdle
            obtain ⟨block, stored, zero⟩ := idle key List.mem_cons_self
            refine ⟨(key, block) :: found, ?_, by simpa using bound, ?_, ?_, ?_, ?_⟩
            · simp [LRUCachePolicy.candidates, skip, stored, zero, scanned]
            · rw [List.map_cons, List.nodup_cons]
              refine ⟨fun member => ?_, distinct⟩
              obtain ⟨victim, victimMember, same⟩ := List.mem_map.mp member
              have inRest := inScan victim victimMember
              rw [same] at inRest
              exact nodup.1 inRest
            · simp only [List.mem_cons, forall_eq_or_imp, true_or, true_and]
              exact fun victim member => Or.inr (inScan victim member)
            · simpa [stored, zero] using fun key block => status (key, block)
            · simpa [skip] using fun key block => free (key, block)

theorem drop_victims_get (victims : Victims) (policy : LRUCachePolicy) (key : OffloadKey) :
    (victims.foldl LRUCachePolicy.dropVictim policy).blocks.get? key =
        (if key ∈ victims.map Prod.fst then none else policy.blocks.get? key) ∧
      (key ∈ (victims.foldl LRUCachePolicy.dropVictim policy).evictableBlocks.keys ↔
        key ∉ victims.map Prod.fst ∧ key ∈ policy.evictableBlocks.keys) := by
  induction victims generalizing policy with
  | nil => simp
  | cons victim rest ih =>
      obtain ⟨blocks, evictable⟩ := ih (policy.dropVictim victim)
      rw [List.foldl_cons, blocks, evictable]
      simp only [LRUCachePolicy.dropVictim, OrderedMap.get_erase, OrderedMap.mem_keys_erase,
        List.map_cons, List.mem_cons]
      by_cases here : key = victim.1 <;> by_cases later : key ∈ rest.map Prod.fst <;>
        simp [here, later]

theorem lru_evict_ok {policy : LRUCachePolicy} (inv : EvictableIffIdle policy) (count : Nat)
    (guarded : List OffloadKey) :
    policy.evict count guarded = .ok none ∨
      ∃ victims after, policy.evict count guarded = .ok (some (victims, after)) ∧
        EvictableIffIdle after ∧ EvictOutcome policy count guarded victims after := by
  by_cases none : count = 0
  · refine Or.inr ⟨[], policy, by simp [LRUCachePolicy.evict, none], inv, ?_⟩
    exact ⟨by simp [none], by simp, by simp, by simp, by simp⟩
  · obtain ⟨found, scanned, bound, distinct, inScan, status, free⟩ :=
      candidates_ok guarded count policy.evictableBlocks.keys
        policy.evictableBlocks.keys_nodup (fun key member => (inv key).mp member)
    by_cases short : found.length < count
    · exact Or.inl (by simp [LRUCachePolicy.evict, none, scanned, short])
    · refine Or.inr ⟨found, found.foldl LRUCachePolicy.dropVictim policy,
        by simp [LRUCachePolicy.evict, none, scanned, short], fun key => ?_, ?_⟩
      · obtain ⟨blocks, evictable⟩ := drop_victims_get found policy key
        rw [evictable, blocks, inv key]
        by_cases dropped : key ∈ found.map Prod.fst <;> simp [dropped]
      · exact ⟨by omega, distinct, status, free, fun key => (drop_victims_get found policy key).1⟩

theorem get_set_ref_cnt {policy : LRUCachePolicy} {key : OffloadKey} {block : BlockStatus}
    (stored : policy.blocks.get? key = some block) (refCnt : Int) (other : OffloadKey) :
    (policy.setRefCnt key refCnt).blocks.get? other =
      if other = key then some (block.withRefCnt refCnt) else policy.blocks.get? other := by
  simp only [LRUCachePolicy.setRefCnt, OrderedMap.get_modify]
  by_cases same : other = key <;> simp [same, stored]

theorem recount_inv {policy : LRUCachePolicy} (inv : EvictableIffIdle policy)
    {key : OffloadKey} {block : BlockStatus} {refCnt : Int}
    (stored : policy.blocks.get? key = some block) (busy : block.refCnt ≠ 0)
    (stillBusy : refCnt ≠ 0) : EvictableIffIdle (policy.setRefCnt key refCnt) := by
  intro other
  rw [get_set_ref_cnt stored]
  show other ∈ policy.evictableBlocks.keys ↔ _
  rw [inv other]
  by_cases same : other = key
  · subst same
    simp [stored, busy, stillBusy]
  · simp [same]

theorem release_inv {policy : LRUCachePolicy} (inv : EvictableIffIdle policy)
    {key : OffloadKey} {block : BlockStatus} (stored : policy.blocks.get? key = some block) :
    EvictableIffIdle ((policy.setRefCnt key 0).markEvictable key) := by
  intro other
  show other ∈ (policy.evictableBlocks.set key ()).keys ↔
    ∃ block, (policy.setRefCnt key 0).blocks.get? other = some block ∧ block.refCnt = 0
  rw [get_set_ref_cnt stored, OrderedMap.mem_keys_set, inv other]
  by_cases same : other = key
  · simp [same]
  · simp [same]

theorem lru_pin_ok {policy : LRUCachePolicy} (inv : EvictableIffIdle policy)
    {key : OffloadKey} {block : BlockStatus} (stored : policy.blocks.get? key = some block)
    (idle : block.refCnt = 0) :
    ∃ held, policy.markNonEvictable key = .ok held ∧ EvictableIffIdle (held.setRefCnt key 1) ∧
      ∀ other, (held.setRefCnt key 1).blocks.get? other =
        if other = key then some (block.withRefCnt 1) else policy.blocks.get? other := by
  have listed : key ∈ policy.evictableBlocks.keys := (inv key).mpr ⟨block, stored, idle⟩
  obtain ⟨value, found⟩ :=
    Option.isSome_iff_exists.mp ((OrderedMap.mem_keys_iff _ _).mp listed)
  let held : LRUCachePolicy :=
    { policy with evictableBlocks := policy.evictableBlocks.erase key }
  have heldStored : held.blocks.get? key = some block := stored
  refine ⟨held, by simp [LRUCachePolicy.markNonEvictable, found, held], fun other => ?_,
    fun other => get_set_ref_cnt heldStored 1 other⟩
  rw [get_set_ref_cnt heldStored]
  show other ∈ (policy.evictableBlocks.erase key).keys ↔ _
  rw [OrderedMap.mem_keys_erase, inv other]
  by_cases same : other = key
  · simp [same]
  · simp [same, held]

instance : LawfulCachePolicy LRUCachePolicy where
  Inv := EvictableIffIdle
  stored_nodup {policy} _ := policy.blocks.keys_nodup
  mem_stored {policy} _ key := policy.blocks.mem_keys_iff key
  inv_insert {policy} inv key blockId absent other := by
    have old := inv other
    simp only [CachePolicy.get] at absent
    simp only [CachePolicy.insert, LRUCachePolicy.insert, new_ref_cnt, OrderedMap.get_set]
    by_cases same : other = key
    · subst same
      simpa [absent] using old
    · simpa [same] using old
  get_insert {policy} _ key blockId _ other :=
    OrderedMap.get_set policy.blocks key other (BlockStatus.new blockId)
  inv_touch {policy} inv keys key := by
    obtain ⟨blocks, evictable⟩ := touch_frame keys.reverse policy
    rw [show CachePolicy.touch policy keys = keys.reverse.foldl LRUCachePolicy.touchKey policy
      from rfl, blocks, evictable]
    exact inv key
  get_touch {policy} _ keys other := by
    show (keys.reverse.foldl LRUCachePolicy.touchKey policy).blocks.get? other = _
    rw [(touch_frame keys.reverse policy).1]
    rfl
  remove_ok {policy} inv key block stored := by
    simp only [CachePolicy.get] at stored
    refine ⟨{ policy with
        blocks := policy.blocks.erase key
        evictableBlocks := policy.evictableBlocks.erase key },
      by simp [CachePolicy.remove, LRUCachePolicy.remove, stored], fun other => ?_,
      fun other => OrderedMap.get_erase policy.blocks key other⟩
    simp only [OrderedMap.mem_keys_erase, OrderedMap.get_erase, inv other]
    by_cases same : other = key <;> simp [same]
  evict_ok {policy} inv count guarded := lru_evict_ok inv count guarded
  inv_clear _ key := by simp [CachePolicy.clear, LRUCachePolicy.clear]
  get_clear _ _ := rfl
  inv_recount {policy} inv _ _ _ stored busy stillBusy := recount_inv inv stored busy stillBusy
  get_recount {policy} _ _ _ _ stored other := get_set_ref_cnt stored _ other
  inv_release {policy} inv _ _ stored _ := release_inv inv stored
  get_release {policy} _ _ _ stored other := get_set_ref_cnt stored 0 other
  pin_ok {policy} inv _ _ stored idle := lru_pin_ok inv stored idle

end KvOffload.LruPolicy
