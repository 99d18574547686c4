import KvOffload.Base
import Mathlib.Data.Finset.Card

/-!
# Cache policies

A policy owns the map from keys to blocks and decides what to evict. The
manager mutates `BlockStatus` objects through the reference `get` returns;
here that write is `setRefCnt`. `LawfulCachePolicy` states what the manager
relies on, in terms of `get` alone, for the transitions it really makes: the
write of a reference count and its evictability notice are one step there.
-/

namespace KvOffload.PolicyInterface

open KvOffload.Base

set_option autoImplicit false

/-- `refCnt` counts the transfers reading the block; `-1` marks a block that is
not ready to be read. The count here is exact; the field of the source has 32 bits, which
is the same while no key has `2 ^ 31` loads outstanding. -/
structure BlockStatus where
  refCnt : Int
  blockId : Nat
  deriving DecidableEq, Repr

def BlockStatus.new (blockId : Nat) : BlockStatus := ⟨-1, blockId⟩

def BlockStatus.isReady (block : BlockStatus) : Bool := 0 ≤ block.refCnt

def BlockStatus.withRefCnt (block : BlockStatus) (refCnt : Int) : BlockStatus :=
  { block with refCnt := refCnt }

@[simp] theorem with_ref_cnt_block_id (block : BlockStatus) (refCnt : Int) :
    (block.withRefCnt refCnt).blockId = block.blockId := rfl

@[simp] theorem with_ref_cnt_ref_cnt (block : BlockStatus) (refCnt : Int) :
    (block.withRefCnt refCnt).refCnt = refCnt := rfl

@[simp] theorem new_block_id (blockId : Nat) : (BlockStatus.new blockId).blockId = blockId := rfl

@[simp] theorem new_ref_cnt (blockId : Nat) : (BlockStatus.new blockId).refCnt = -1 := rfl

abbrev Victims := List (OffloadKey × BlockStatus)

class CachePolicy (P : Type) where
  get : P → OffloadKey → Option BlockStatus
  insert : P → OffloadKey → BlockStatus → P
  remove : P → OffloadKey → Except PyError P
  touch : P → List OffloadKey → P
  evict : P → Nat → List OffloadKey → Except PyError (Option (Victims × P))
  clear : P → P
  storedKeys : P → List OffloadKey
  markEvictable : P → OffloadKey → P
  markNonEvictable : P → OffloadKey → Except PyError P
  setRefCnt : P → OffloadKey → Int → P

open CachePolicy

/-- What a successful `evict` may have done. -/
structure EvictOutcome {P : Type} [CachePolicy P] (policy : P) (count : Nat)
    (guarded : List OffloadKey) (victims : Victims) (after : P) : Prop where
  count_eq : victims.length = count
  distinct : (victims.map Prod.fst).Nodup
  idle : ∀ victim ∈ victims, get policy victim.1 = some victim.2 ∧ victim.2.refCnt = 0
  unguarded : ∀ victim ∈ victims, victim.1 ∉ guarded
  get_after : ∀ key, get after key =
    if key ∈ victims.map Prod.fst then none else get policy key

class LawfulCachePolicy (P : Type) [CachePolicy P] where
  Inv : P → Prop
  stored_nodup : ∀ {policy : P}, Inv policy → (storedKeys policy).Nodup
  mem_stored : ∀ {policy : P}, Inv policy → ∀ key,
    key ∈ storedKeys policy ↔ (get policy key).isSome
  inv_insert : ∀ {policy : P}, Inv policy → ∀ {key blockId}, get policy key = none →
    Inv (insert policy key (BlockStatus.new blockId))
  get_insert : ∀ {policy : P}, Inv policy → ∀ {key blockId}, get policy key = none →
    ∀ other, get (insert policy key (BlockStatus.new blockId)) other =
      if other = key then some (BlockStatus.new blockId) else get policy other
  inv_touch : ∀ {policy : P}, Inv policy → ∀ keys, Inv (touch policy keys)
  get_touch : ∀ {policy : P}, Inv policy → ∀ keys other,
    get (touch policy keys) other = get policy other
  remove_ok : ∀ {policy : P}, Inv policy → ∀ {key block}, get policy key = some block →
    ∃ after, remove policy key = .ok after ∧ Inv after ∧
      ∀ other, get after other = if other = key then none else get policy other
  evict_ok : ∀ {policy : P}, Inv policy → ∀ count guarded,
    evict policy count guarded = .ok none ∨
      ∃ victims after, evict policy count guarded = .ok (some (victims, after)) ∧
        Inv after ∧ EvictOutcome policy count guarded victims after
  inv_clear : ∀ policy : P, Inv (clear policy)
  get_clear : ∀ (policy : P) key, get (clear policy) key = none
  inv_recount : ∀ {policy : P}, Inv policy → ∀ {key block refCnt},
    get policy key = some block → block.refCnt ≠ 0 → refCnt ≠ 0 →
      Inv (setRefCnt policy key refCnt)
  get_recount : ∀ {policy : P}, Inv policy → ∀ {key block refCnt},
    get policy key = some block → ∀ other, get (setRefCnt policy key refCnt) other =
      if other = key then some (block.withRefCnt refCnt) else get policy other
  inv_release : ∀ {policy : P}, Inv policy → ∀ {key block},
    get policy key = some block → block.refCnt ≠ 0 →
      Inv (markEvictable (setRefCnt policy key 0) key)
  get_release : ∀ {policy : P}, Inv policy → ∀ {key block},
    get policy key = some block → ∀ other,
      get (markEvictable (setRefCnt policy key 0) key) other =
        if other = key then some (block.withRefCnt 0) else get policy other
  pin_ok : ∀ {policy : P}, Inv policy → ∀ {key block}, get policy key = some block →
    block.refCnt = 0 → ∃ held, markNonEvictable policy key = .ok held ∧
      Inv (setRefCnt held key 1) ∧ ∀ other, get (setRefCnt held key 1) other =
        if other = key then some (block.withRefCnt 1) else get policy other

end KvOffload.PolicyInterface
