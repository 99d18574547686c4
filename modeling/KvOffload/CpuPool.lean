import KvOffload.CpuManager
import KvOffload.FiniteTotals
import Mathlib.Algebra.Order.Group.Multiset
import Mathlib.Data.Multiset.Range

/-!
# Block pool invariant

What every operation of the CPU manager does to the map from keys to blocks,
and that it keeps the slot accounting: the slots of stored keys and the free
slots are the allocated slots, each once, and both counters are exact. The
accounting is stated with totals over the stored keys, so that each operation
moves one term of each total.
-/

namespace KvOffload.CpuPool

open KvOffload.Base KvOffload.PolicyInterface KvOffload.FiniteTotals KvOffload.CpuManager

set_option autoImplicit false

variable {P : Type} [CachePolicy P]

def storedSet (manager : CPUOffloadingManager P) : Finset OffloadKey :=
  (CachePolicy.storedKeys manager.policy).toFinset

section Weights

variable {A : Type} [AddCommMonoid A]

def weigh (manager : CPUOffloadingManager P) (weight : BlockStatus → A) : A :=
  total (storedSet manager) manager.get weight

@[simp] theorem weigh_with_slots (manager : CPUOffloadingManager P) (allocated : Nat)
    (freeList : List Nat) (weight : BlockStatus → A) :
    weigh (manager.withSlots allocated freeList) weight = weigh manager weight := rfl

end Weights

def slotOf (block : BlockStatus) : Multiset Nat := {block.blockId}

theorem sum_slots (blockIds : List Nat) :
    (blockIds.map fun id => ({id} : Multiset Nat)).sum = (blockIds : Multiset Nat) := by
  induction blockIds with
  | nil => rfl
  | cons blockId rest ih =>
      rw [List.map_cons, List.sum_cons, ih, Multiset.singleton_add]
      rfl

def idleOne (block : BlockStatus) : Int := if block.refCnt = 0 then 1 else 0

def pendingOne (block : BlockStatus) : Int := if block.refCnt = -1 then 1 else 0

/-- `ref_cnt_ge` says that `-1` is the only negative count. -/
structure PoolInv [LawfulCachePolicy P] (manager : CPUOffloadingManager P) : Prop where
  policy : LawfulCachePolicy.Inv manager.policy
  slots : weigh manager slotOf + (manager.freeList : Multiset Nat) =
    Multiset.range manager.numAllocatedBlocks
  bounded : manager.numAllocatedBlocks ≤ manager.numBlocks
  evictable : manager.numEvictableCacheBlocks = weigh manager idleOne
  pending : manager.numWritePendingBlocks = weigh manager pendingOne
  ref_cnt_ge : ∀ key block, manager.get key = some block → -1 ≤ block.refCnt

/-- The fields the pool invariant reads besides the policy are equal. -/
structure SamePool (manager after : CPUOffloadingManager P) : Prop where
  policy : after.policy = manager.policy
  freeList : after.freeList = manager.freeList
  numBlocks : after.numBlocks = manager.numBlocks
  allocated : after.numAllocatedBlocks = manager.numAllocatedBlocks
  evictable : after.numEvictableCacheBlocks = manager.numEvictableCacheBlocks
  pending : after.numWritePendingBlocks = manager.numWritePendingBlocks

omit [CachePolicy P] in
theorem same_pool_refl (manager : CPUOffloadingManager P) : SamePool manager manager :=
  ⟨rfl, rfl, rfl, rfl, rfl, rfl⟩

omit [CachePolicy P] in
theorem same_pool_trans {first second third : CPUOffloadingManager P}
    (left : SamePool first second) (right : SamePool second third) : SamePool first third :=
  ⟨right.policy.trans left.policy, right.freeList.trans left.freeList,
    right.numBlocks.trans left.numBlocks, right.allocated.trans left.allocated,
    right.evictable.trans left.evictable, right.pending.trans left.pending⟩

theorem same_pool_get {manager after : CPUOffloadingManager P}
    (same : SamePool manager after) : after.get = manager.get := by
  funext key
  simp only [CPUOffloadingManager.get, same.policy]

variable [LawfulCachePolicy P]

theorem same_pool_inv {manager after : CPUOffloadingManager P}
    (same : SamePool manager after) (inv : PoolInv manager) : PoolInv after := by
  have getSame := same_pool_get same
  have weighSame : ∀ {A : Type} [AddCommMonoid A] (weight : BlockStatus → A),
      weigh after weight = weigh manager weight := by
    intro A _ weight
    simp only [weigh, storedSet, getSame, same.policy]
  constructor
  · exact same.policy ▸ inv.policy
  · rw [weighSame, same.freeList, same.allocated, inv.slots]
  · rw [same.allocated, same.numBlocks]
    exact inv.bounded
  · rw [weighSame, same.evictable, inv.evictable]
  · rw [weighSame, same.pending, inv.pending]
  · rw [getSame]
    exact inv.ref_cnt_ge

theorem stored_set_covers {manager : CPUOffloadingManager P}
    (policyInv : LawfulCachePolicy.Inv manager.policy) :
    Covers (storedSet manager) manager.get := by
  intro key present
  rw [storedSet, List.mem_toFinset, LawfulCachePolicy.mem_stored policyInv]
  exact Option.isSome_iff_ne_none.mpr present

theorem slot_mem_stored {manager : CPUOffloadingManager P} (inv : PoolInv manager)
    {key : OffloadKey} {block : BlockStatus} (bound : manager.get key = some block) :
    block.blockId ∈ weigh manager slotOf := by
  have member : key ∈ storedSet manager :=
    stored_set_covers inv.policy key (by rw [bound]; exact Option.some_ne_none block)
  rw [weigh, total, ← Finset.add_sum_erase _ _ member, bound]
  exact Multiset.mem_add.mpr (.inl (Multiset.mem_singleton_self _))

theorem slots_nodup {manager : CPUOffloadingManager P} (inv : PoolInv manager) :
    (weigh manager slotOf + (manager.freeList : Multiset Nat)).Nodup :=
  inv.slots ▸ Multiset.nodup_range _

theorem stored_slot_not_free {manager : CPUOffloadingManager P} (inv : PoolInv manager)
    {key : OffloadKey} {block : BlockStatus} (bound : manager.get key = some block) :
    block.blockId ∉ manager.freeList := by
  intro free
  have apart := (Multiset.nodup_add.mp (slots_nodup inv)).2.2
  exact Multiset.disjoint_left.mp apart (slot_mem_stored inv bound) (Multiset.mem_coe.mpr free)

theorem stored_slot_injective {manager : CPUOffloadingManager P} (inv : PoolInv manager)
    {left right : OffloadKey} {leftBlock rightBlock : BlockStatus}
    (leftBound : manager.get left = some leftBlock)
    (rightBound : manager.get right = some rightBlock)
    (same : leftBlock.blockId = rightBlock.blockId) : left = right := by
  by_contra different
  have leftMember : left ∈ storedSet manager :=
    stored_set_covers inv.policy left (by rw [leftBound]; exact Option.some_ne_none _)
  have rightMember : right ∈ (storedSet manager).erase left :=
    Finset.mem_erase.mpr ⟨Ne.symm different,
      stored_set_covers inv.policy right (by rw [rightBound]; exact Option.some_ne_none _)⟩
  have stored := (Multiset.nodup_add.mp (slots_nodup inv)).1
  rw [weigh, total, ← Finset.add_sum_erase _ _ leftMember,
    ← Finset.add_sum_erase _ _ rightMember, leftBound, rightBound] at stored
  have apart := (Multiset.nodup_add.mp stored).2.2
  apply Multiset.disjoint_left.mp apart (Multiset.mem_singleton_self leftBlock.blockId)
  exact Multiset.mem_add.mpr (.inl (same ▸ Multiset.mem_singleton_self _))

/-- One block changes its reference count and both counters follow. -/
theorem pool_inv_recount {manager after : CPUOffloadingManager P} (inv : PoolInv manager)
    {key : OffloadKey} {block : BlockStatus} {refCnt : Int}
    (bound : manager.get key = some block)
    (policyInv : LawfulCachePolicy.Inv after.policy)
    (getAfter : ∀ other, after.get other =
      if other = key then some (block.withRefCnt refCnt) else manager.get other)
    (valid : -1 ≤ refCnt)
    (freeList : after.freeList = manager.freeList)
    (numBlocks : after.numBlocks = manager.numBlocks)
    (allocated : after.numAllocatedBlocks = manager.numAllocatedBlocks)
    (evictable : after.numEvictableCacheBlocks + idleOne block =
      manager.numEvictableCacheBlocks + idleOne (block.withRefCnt refCnt))
    (pending : after.numWritePendingBlocks + pendingOne block =
      manager.numWritePendingBlocks + pendingOne (block.withRefCnt refCnt)) :
    PoolInv after := by
  have shift : ∀ {A : Type} [AddCommMonoid A] (weight : BlockStatus → A),
      weigh after weight + weight block =
        weigh manager weight + weight (block.withRefCnt refCnt) := by
    intro A _ weight
    have moved := total_update weight (stored_set_covers inv.policy)
      (stored_set_covers policyInv) key (some (block.withRefCnt refCnt)) getAfter
    rw [bound] at moved
    exact moved
  constructor
  · exact policyInv
  · have slots := shift slotOf
    have sameSlot : slotOf (block.withRefCnt refCnt) = slotOf block := rfl
    rw [sameSlot] at slots
    rw [add_right_cancel slots, freeList, allocated, inv.slots]
  · rw [allocated, numBlocks]
    exact inv.bounded
  · have idle := shift idleOne
    rw [← inv.evictable] at idle
    omega
  · have waiting := shift pendingOne
    rw [← inv.pending] at waiting
    omega
  · intro other status found
    rw [getAfter] at found
    split at found
    · cases found
      exact valid
    · exact inv.ref_cnt_ge other status found

/-- Removed keys give their slots back to the free list. -/
theorem pool_inv_remove {manager after : CPUOffloadingManager P} (inv : PoolInv manager)
    (victims : Victims) (distinct : (victims.map Prod.fst).Nodup)
    (bound : ∀ victim ∈ victims, manager.get victim.1 = some victim.2)
    (policyInv : LawfulCachePolicy.Inv after.policy)
    (getAfter : ∀ other, after.get other =
      if other ∈ victims.map Prod.fst then none else manager.get other)
    (freeList : after.freeList =
      (victims.map fun victim => victim.2.blockId).reverse ++ manager.freeList)
    (numBlocks : after.numBlocks = manager.numBlocks)
    (allocated : after.numAllocatedBlocks = manager.numAllocatedBlocks)
    (evictable : after.numEvictableCacheBlocks +
      (victims.map fun victim => idleOne victim.2).sum = manager.numEvictableCacheBlocks)
    (pending : after.numWritePendingBlocks +
      (victims.map fun victim => pendingOne victim.2).sum = manager.numWritePendingBlocks) :
    PoolInv after := by
  have shift : ∀ {A : Type} [AddCommMonoid A] (weight : BlockStatus → A),
      weigh after weight + (victims.map fun victim => weight victim.2).sum =
        weigh manager weight := by
    intro A _ weight
    exact total_remove weight (stored_set_covers inv.policy) (stored_set_covers policyInv)
      victims distinct bound getAfter
  have freed : (victims.map fun victim => slotOf victim.2).sum =
      ((victims.map fun victim => victim.2.blockId).reverse : Multiset Nat) := by
    rw [Multiset.coe_reverse, ← sum_slots, List.map_map]
    rfl
  constructor
  · exact policyInv
  · rw [freeList, ← Multiset.coe_add, ← freed, ← add_assoc, shift slotOf, allocated, inv.slots]
  · rw [allocated, numBlocks]
    exact inv.bounded
  · have idle := shift idleOne
    rw [← inv.evictable] at idle
    omega
  · have waiting := shift pendingOne
    rw [← inv.pending] at waiting
    omega
  · intro other status found
    rw [getAfter] at found
    split at found
    · cases found
    · exact inv.ref_cnt_ge other status found

/-- The blocks a store reserves, by key. -/
def reservedAt (keys : List OffloadKey) (blockIds : List Nat) (key : OffloadKey) : Option Nat :=
  assocGet (keys.zip blockIds) key

theorem reserved_at_cons (key other : OffloadKey) (keys : List OffloadKey)
    (blockId : Nat) (blockIds : List Nat) :
    reservedAt (key :: keys) (blockId :: blockIds) other =
      if other = key then some blockId else reservedAt keys blockIds other := by
  by_cases same : other = key
  · simp [reservedAt, assocGet, same]
  · have different : ¬key = other := fun equal => same equal.symm
    simp [reservedAt, assocGet, same, different]

theorem reserved_at_is_some {keys : List OffloadKey} {blockIds : List Nat}
    (lengths : blockIds.length = keys.length) (key : OffloadKey) :
    (reservedAt keys blockIds key).isSome ↔ key ∈ keys := by
  have zipKeys : (keys.zip blockIds).map Prod.fst = keys :=
    List.map_fst_zip (by omega)
  have absent := assoc_get_eq_none_iff (keys.zip blockIds) key
  rw [zipKeys] at absent
  rw [Option.isSome_iff_ne_none, ne_eq, reservedAt, absent, not_not]

theorem reserved_at_eq_none {keys : List OffloadKey} {blockIds : List Nat}
    (lengths : blockIds.length = keys.length) {key : OffloadKey} (absent : key ∉ keys) :
    reservedAt keys blockIds key = none := by
  rw [← Option.not_isSome_iff_eq_none, reserved_at_is_some lengths]
  exact absent

theorem reserved_at_mem {keys : List OffloadKey} {blockIds : List Nat}
    (lengths : blockIds.length = keys.length) (distinct : keys.Nodup)
    {entry : OffloadKey × Nat} (member : entry ∈ keys.zip blockIds) :
    reservedAt keys blockIds entry.1 = some entry.2 := by
  apply assoc_get_of_mem _ member
  rw [List.map_fst_zip (by omega)]
  exact distinct

/-- Inserting distinct absent keys adds their slots and their pending ones. -/
theorem insert_blocks_ok (keys : List OffloadKey) (blockIds : List Nat)
    (lengths : blockIds.length = keys.length) (distinct : keys.Nodup)
    (manager : CPUOffloadingManager P) (policyInv : LawfulCachePolicy.Inv manager.policy)
    (fresh : ∀ key ∈ keys, manager.get key = none) :
    let after := manager.insertBlocks (keys.zip (blockIds.map BlockStatus.new))
    LawfulCachePolicy.Inv after.policy ∧
      (∀ key, after.get key = ((reservedAt keys blockIds key).map BlockStatus.new).or
        (manager.get key)) ∧
      ∀ {A : Type} [AddCommMonoid A] (weight : BlockStatus → A),
        weigh after weight =
          weigh manager weight + (blockIds.map fun id => weight (BlockStatus.new id)).sum := by
  induction keys generalizing blockIds manager with
  | nil =>
      obtain rfl : blockIds = [] := List.length_eq_zero_iff.mp lengths
      refine ⟨policyInv, fun key => ?_, fun weight => ?_⟩
      · simp [reservedAt, assocGet, CPUOffloadingManager.insertBlocks]
      · simp [CPUOffloadingManager.insertBlocks]
  | cons key rest ih =>
      obtain _ | ⟨blockId, otherIds⟩ := blockIds
      · simp at lengths
      rw [List.nodup_cons] at distinct
      have keyFresh : manager.get key = none := fresh key List.mem_cons_self
      let middle : CPUOffloadingManager P := { manager with
        policy := CachePolicy.insert manager.policy key (BlockStatus.new blockId) }
      have middleInv : LawfulCachePolicy.Inv middle.policy :=
        LawfulCachePolicy.inv_insert policyInv keyFresh
      have middleGet : ∀ other, middle.get other =
          if other = key then some (BlockStatus.new blockId) else manager.get other :=
        LawfulCachePolicy.get_insert policyInv keyFresh
      have middleFresh : ∀ other ∈ rest, middle.get other = none := by
        intro other member
        have different : other ≠ key := fun equal => distinct.1 (equal ▸ member)
        rw [middleGet, if_neg different]
        exact fresh other (List.mem_cons_of_mem _ member)
      obtain ⟨laterInv, laterGet, laterWeigh⟩ := ih otherIds (by simpa using lengths) distinct.2
        middle middleInv middleFresh
      refine ⟨laterInv, fun other => ?_, fun weight => ?_⟩
      · refine (laterGet other).trans ?_
        rw [middleGet]
        by_cases same : other = key
        · subst same
          have absent := reserved_at_eq_none (by simpa using lengths) distinct.1
          rw [reserved_at_cons, if_pos rfl, absent]
          simp
        · rw [reserved_at_cons, if_neg same, if_neg same]
      · have moved := total_update weight (stored_set_covers policyInv)
          (stored_set_covers middleInv) key (some (BlockStatus.new blockId)) middleGet
        rw [keyFresh] at moved
        refine (laterWeigh weight).trans ?_
        simp only [Option.elim_none, add_zero, Option.elim_some] at moved
        rw [weigh, moved, List.map_cons, List.sum_cons, ← add_assoc]
        rfl

end KvOffload.CpuPool
