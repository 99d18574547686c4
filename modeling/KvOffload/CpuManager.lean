import KvOffload.PolicyInterface

/-!
# CPU offloading manager

The block pool, reference counts, eviction and event emission of
`CPUOffloadingManager`, over any cache policy. An `Except` error is a raised
assertion or `KeyError`. Log lines and the metrics of `get_stats` are left out.
-/

namespace KvOffload.CpuManager

open KvOffload KvOffload.Base KvOffload.PolicyInterface

set_option autoImplicit false

/-- `freeList` has the end of the Python list first, where blocks are pushed
and popped. -/
structure CPUOffloadingManager (P : Type) where
  medium : Medium
  numBlocks : Nat
  numAllocatedBlocks : Nat
  freeList : List Nat
  events : Option (List OffloadingEvent)
  policy : P
  numEvictableCacheBlocks : Int
  numWritePendingBlocks : Int
  evictedTotal : Nat
  evictionTombstoneCapacity : Nat
  evictionTombstones : Option (OrderedMap BlockHash Unit)
  evictionTombstoneOverflowsTotal : Nat
  evictionCallCap : Nat
  evictionCappedTotal : Nat
  evictionCappedDecayTotal : Nat
  storeThreshold : Nat
  maxTrackerSize : Nat
  storesSkippedInCurrentBatch : Nat
  allocationSizesInCurrentBatch : List Nat
  counts : Option (OrderedMap OffloadKey Nat)

/-- Constructor arguments and the two parsed environment settings. -/
structure CpuManagerParams where
  numBlocks : Nat
  enableEvents : Bool := false
  storeThreshold : Nat := 1
  maxTrackerSize : Nat := 64000
  evictionTombstoneCapacity : Nat := 262144
  evictionCallCap : Nat := 2000

variable {P : Type} [CachePolicy P]

namespace CPUOffloadingManager

def new (params : CpuManagerParams) (policy : P) : CPUOffloadingManager P where
  medium := .cpu
  numBlocks := params.numBlocks
  numAllocatedBlocks := 0
  freeList := []
  events := if params.enableEvents then some [] else none
  policy := policy
  numEvictableCacheBlocks := 0
  numWritePendingBlocks := 0
  evictedTotal := 0
  evictionTombstoneCapacity := params.evictionTombstoneCapacity
  evictionTombstones :=
    if 0 < params.evictionTombstoneCapacity then some OrderedMap.empty else none
  evictionTombstoneOverflowsTotal := 0
  evictionCallCap := params.evictionCallCap
  evictionCappedTotal := 0
  evictionCappedDecayTotal := 0
  storeThreshold := params.storeThreshold
  maxTrackerSize := params.maxTrackerSize
  storesSkippedInCurrentBatch := 0
  allocationSizesInCurrentBatch := []
  counts := if 2 ≤ params.storeThreshold then some OrderedMap.empty else none

def get (manager : CPUOffloadingManager P) (key : OffloadKey) : Option BlockStatus :=
  CachePolicy.get manager.policy key

def getNumFreeBlocks (manager : CPUOffloadingManager P) : Int :=
  (manager.freeList.length : Int) + manager.numBlocks - manager.numAllocatedBlocks

def withSlots (manager : CPUOffloadingManager P) (numAllocatedBlocks : Nat)
    (freeList : List Nat) : CPUOffloadingManager P :=
  { manager with numAllocatedBlocks := numAllocatedBlocks, freeList := freeList }

/-- Fresh blocks first, then blocks popped off the free list. -/
def allocateBlocks (manager : CPUOffloadingManager P) (count : Nat) :
    Except PyError (List BlockStatus × CPUOffloadingManager P) := do
  let numFresh := min count (manager.numBlocks - manager.numAllocatedBlocks)
  let numReused := count - numFresh
  pyAssert (numReused ≤ manager.freeList.length)
  let ids := List.range' manager.numAllocatedBlocks numFresh ++
    manager.freeList.take numReused
  .ok (ids.map BlockStatus.new,
    manager.withSlots (manager.numAllocatedBlocks + numFresh) (manager.freeList.drop numReused))

def freeBlock (manager : CPUOffloadingManager P) (block : BlockStatus) :
    CPUOffloadingManager P :=
  { manager with freeList := block.blockId :: manager.freeList }

/-- At capacity the oldest tracked key ages out. -/
def trackerRoom (manager : CPUOffloadingManager P) (counts : OrderedMap OffloadKey Nat) :
    Except PyError (OrderedMap OffloadKey Nat) :=
  if manager.maxTrackerSize ≤ counts.size then
    (pyItem .countsTracker counts.popFirst).map Prod.snd
  else .ok counts

/-- The reuse tracker of a lookup. -/
def countLookup (manager : CPUOffloadingManager P) (key : OffloadKey) :
    Except PyError (CPUOffloadingManager P) :=
  match manager.counts with
  | none => .ok manager
  | some counts =>
      if counts.contains key then
        .ok { manager with
          counts := some ((counts.moveToEnd key).modify key fun count => count + 1) }
      else do
        let room ← manager.trackerRoom counts
        .ok { manager with counts := some (room.set key 1) }

def lookupResult (manager : CPUOffloadingManager P) (key : OffloadKey) : LookupResult :=
  match manager.get key with
  | none => .miss
  | some block => if block.isReady then .hit else .hitPending

def lookup (manager : CPUOffloadingManager P) (key : OffloadKey) :
    Except PyError (LookupResult × CPUOffloadingManager P) := do
  let manager ← manager.countLookup key
  .ok (manager.lookupResult key, manager)

/-- The body of `prepare_load`'s loop for one key. -/
def pinBlock (manager : CPUOffloadingManager P) (key : OffloadKey) :
    Except PyError (Nat × CPUOffloadingManager P) :=
  match manager.get key with
  | none => .error .assertionError
  | some block => do
      pyAssert (block.isReady = true)
      let held ←
        if block.refCnt = 0 then do
          let policy ← CachePolicy.markNonEvictable manager.policy key
          pyAssert (0 ≤ manager.numEvictableCacheBlocks - 1)
          .ok { manager with
            policy := policy
            numEvictableCacheBlocks := manager.numEvictableCacheBlocks - 1 }
        else .ok manager
      .ok (block.blockId,
        { held with policy := CachePolicy.setRefCnt held.policy key (block.refCnt + 1) })

/-- The returned list is the `CPULoadStoreSpec` of the load. -/
def prepareLoad (manager : CPUOffloadingManager P) :
    List OffloadKey → Except PyError (List Nat × CPUOffloadingManager P)
  | [] => .ok ([], manager)
  | key :: rest => do
      let (blockId, manager) ← manager.pinBlock key
      let (blockIds, manager) ← prepareLoad manager rest
      .ok (blockId :: blockIds, manager)

def touch (manager : CPUOffloadingManager P) (keys : List OffloadKey) :
    CPUOffloadingManager P :=
  { manager with policy := CachePolicy.touch manager.policy keys }

def unpinBlock (manager : CPUOffloadingManager P) (key : OffloadKey) :
    Except PyError (CPUOffloadingManager P) :=
  match manager.get key with
  | none => .error .assertionError
  | some block => do
      pyAssert (0 < block.refCnt)
      let lowered :=
        { manager with policy := CachePolicy.setRefCnt manager.policy key (block.refCnt - 1) }
      if block.refCnt - 1 = 0 then
        .ok { lowered with
          numEvictableCacheBlocks := lowered.numEvictableCacheBlocks + 1
          policy := CachePolicy.markEvictable lowered.policy key }
      else .ok lowered

def completeLoad (manager : CPUOffloadingManager P) :
    List OffloadKey → Except PyError (CPUOffloadingManager P)
  | [] => .ok manager
  | key :: rest => do
      let manager ← manager.unpinBlock key
      completeLoad manager rest

/-- The store-threshold gate at the head of `prepare_store`. -/
def gateKeys (manager : CPUOffloadingManager P) (keys : List OffloadKey)
    (bypassThreshold : Bool) : List OffloadKey × CPUOffloadingManager P :=
  match manager.counts with
  | none => (keys, manager)
  | some counts =>
      if bypassThreshold then (keys, manager)
      else
        let passing := keys.filter fun key =>
          manager.storeThreshold ≤ (counts.get? key).getD 0
        (passing, { manager with
          storesSkippedInCurrentBatch :=
            manager.storesSkippedInCurrentBatch + (keys.length - passing.length) })

/-- The per-call eviction cap: the number of blocks to ask for, with the
deferred demand counted. -/
def capEviction (manager : CPUOffloadingManager P) (requested : Int) :
    Int × CPUOffloadingManager P :=
  if 0 < manager.evictionCallCap ∧ (manager.evictionCallCap : Int) < requested then
    (manager.evictionCallCap,
      { manager with
        evictionCappedTotal := manager.evictionCappedTotal + 1
        evictionCappedDecayTotal :=
          manager.evictionCappedDecayTotal + (requested - manager.evictionCallCap).toNat })
  else (requested, manager)

def freeVictims (manager : CPUOffloadingManager P) (victims : Victims) :
    CPUOffloadingManager P :=
  victims.foldl (fun manager victim => manager.freeBlock victim.2) manager

/-- The victims leave the counters and give their slots back. -/
def takeVictims (manager : CPUOffloadingManager P) (policy : P) (victims : Victims) :
    CPUOffloadingManager P :=
  { manager with
    policy := policy
    numEvictableCacheBlocks :=
      manager.numEvictableCacheBlocks - victims.length }.freeVictims victims

/-- The eviction part of `prepare_store`: `none` when it returns `None`, else
the evicted keys. `keys` is the gate-filtered input, which is never evicted. -/
def makeRoom (manager : CPUOffloadingManager P) (keys : List OffloadKey) (numToStore : Nat) :
    Except PyError (Option (List OffloadKey) × CPUOffloadingManager P) :=
  let freeBefore := manager.getNumFreeBlocks
  let numBlocksToEvict : Int := numToStore - freeBefore
  if 0 < numBlocksToEvict then
    let (numBlocksToEvict, manager) := manager.capEviction numBlocksToEvict
    if manager.numEvictableCacheBlocks < numBlocksToEvict ∨
        freeBefore + numBlocksToEvict < numToStore then
      .ok (none, manager)
    else do
      match ← CachePolicy.evict manager.policy numBlocksToEvict.toNat keys with
      | none => .ok (none, manager)
      | some (victims, policy) => do
          pyAssert (0 ≤ manager.numEvictableCacheBlocks - victims.length)
          .ok (some (victims.map Prod.fst), manager.takeVictims policy victims)
  else .ok (some [], manager)

/-- One insertion into the tombstone registry; oldest hashes age out. -/
def recordTombstone (capacity : Nat) (state : OrderedMap BlockHash Unit × Nat)
    (blockHash : BlockHash) : OrderedMap BlockHash Unit × Nat :=
  if state.1.contains blockHash then state
  else
    let grown := state.1.set blockHash ()
    (grown.dropOldest (grown.size - capacity), state.2 + (grown.size - capacity))

def recordEvictionTombstones (manager : CPUOffloadingManager P)
    (blockHashes : List BlockHash) : CPUOffloadingManager P :=
  match manager.evictionTombstones with
  | none => manager
  | some registry =>
      let (registry, overflows) :=
        blockHashes.foldl (recordTombstone manager.evictionTombstoneCapacity) (registry, 0)
      { manager with
        evictionTombstones := some registry
        evictionTombstoneOverflowsTotal :=
          manager.evictionTombstoneOverflowsTotal + overflows }

def hasEvictionTombstone (manager : CPUOffloadingManager P) (blockHash : BlockHash) : Bool :=
  match manager.evictionTombstones with
  | none => false
  | some registry => registry.contains blockHash

def emit (manager : CPUOffloadingManager P) (keys : List OffloadKey) (removed : Bool) :
    CPUOffloadingManager P :=
  match manager.events with
  | none => manager
  | some events => { manager with events := some (events ++ [⟨keys, manager.medium, removed⟩]) }

/-- Counters, tombstones and the removal event of a non-empty eviction. -/
def noteEvicted (manager : CPUOffloadingManager P) (toEvict : List OffloadKey) :
    CPUOffloadingManager P :=
  if toEvict = [] then manager
  else
    ({ manager with
      evictedTotal := manager.evictedTotal + toEvict.length }.recordEvictionTombstones
        (toEvict.map getOffloadBlockHash)).emit toEvict true

def insertBlocks (manager : CPUOffloadingManager P)
    (entries : List (OffloadKey × BlockStatus)) : CPUOffloadingManager P :=
  { manager with
    policy := entries.foldl
      (fun policy entry => CachePolicy.insert policy entry.1 entry.2) manager.policy }

def addWritePending (manager : CPUOffloadingManager P) (count : Nat) :
    CPUOffloadingManager P :=
  { manager with numWritePendingBlocks := manager.numWritePendingBlocks + count }

/-- The end of `prepare_store`: blocks for the new keys, entered as pending. -/
def reserveBlocks (manager : CPUOffloadingManager P) (keysToStore toEvict : List OffloadKey) :
    Except PyError (PrepareStoreOutput × CPUOffloadingManager P) := do
  let (blocks, manager) ← manager.allocateBlocks keysToStore.length
  pyAssert (blocks.length = keysToStore.length)
  let manager := manager.insertBlocks (keysToStore.zip blocks)
  .ok (⟨keysToStore, blocks.map BlockStatus.blockId, toEvict⟩,
    manager.addWritePending keysToStore.length)

def prepareStore (manager : CPUOffloadingManager P) (keys : List OffloadKey)
    (bypassThreshold : Bool) :
    Except PyError (Option PrepareStoreOutput × CPUOffloadingManager P) :=
  let (keys, manager) := manager.gateKeys keys bypassThreshold
  let keysToStore := keys.filter fun key => (manager.get key).isNone
  if keysToStore = [] then .ok (some ⟨[], [], []⟩, manager)
  else do
    let manager := { manager with
      allocationSizesInCurrentBatch :=
        manager.allocationSizesInCurrentBatch ++ [keysToStore.length] }
    match ← manager.makeRoom keys keysToStore.length with
    | (none, manager) => .ok (none, manager)
    | (some toEvict, manager) => do
        let (output, manager) ← (manager.noteEvicted toEvict).reserveBlocks keysToStore toEvict
        .ok (some output, manager)

/-- One key of a successful `complete_store`; only a pending block changes. -/
def publishBlock (manager : CPUOffloadingManager P) (key : OffloadKey) :
    Option (CPUOffloadingManager P) :=
  match manager.get key with
  | none => none
  | some block =>
      if block.isReady then none
      else some { manager with
        numWritePendingBlocks := manager.numWritePendingBlocks - 1
        numEvictableCacheBlocks := manager.numEvictableCacheBlocks + 1
        policy := CachePolicy.markEvictable (CachePolicy.setRefCnt manager.policy key 0) key }

def publishBlocks (manager : CPUOffloadingManager P) :
    List OffloadKey → List OffloadKey × CPUOffloadingManager P
  | [] => ([], manager)
  | key :: rest =>
      match manager.publishBlock key with
      | none => publishBlocks manager rest
      | some manager =>
          let (stored, manager) := publishBlocks manager rest
          (key :: stored, manager)

/-- One key of a failed `complete_store`. -/
def discardBlock (manager : CPUOffloadingManager P) (key : OffloadKey) :
    Except PyError (CPUOffloadingManager P) :=
  match manager.get key with
  | none => .ok manager
  | some block =>
      if block.isReady then .ok manager
      else do
        let policy ← CachePolicy.remove manager.policy key
        .ok ({ manager with
          numWritePendingBlocks := manager.numWritePendingBlocks - 1
          policy := policy }.freeBlock block)

def discardBlocks (manager : CPUOffloadingManager P) :
    List OffloadKey → Except PyError (CPUOffloadingManager P)
  | [] => .ok manager
  | key :: rest => do
      let manager ← manager.discardBlock key
      discardBlocks manager rest

/-- A hash that is stored again is no longer a tombstone. -/
def clearTombstones (manager : CPUOffloadingManager P) (stored : List OffloadKey) :
    CPUOffloadingManager P :=
  match manager.evictionTombstones with
  | none => manager
  | some registry => { manager with
      evictionTombstones := some
        (stored.foldl (fun registry key => registry.erase (getOffloadBlockHash key)) registry) }

def completeStore (manager : CPUOffloadingManager P) (keys : List OffloadKey)
    (success : Bool) : Except PyError (CPUOffloadingManager P) :=
  if success then
    let (stored, manager) := manager.publishBlocks keys
    if stored = [] then .ok manager
    else .ok ((manager.clearTombstones stored).emit stored false)
  else manager.discardBlocks keys

/-- The removal events of `reset_cache`, at most `65536` keys each. -/
def resetEvents (manager : CPUOffloadingManager P) (removed : List OffloadKey) :
    CPUOffloadingManager P :=
  (removed.toChunks 65536).foldl (fun manager chunk => manager.emit chunk true) manager

def resetCache (manager : CPUOffloadingManager P) : CPUOffloadingManager P :=
  let manager := manager.resetEvents (CachePolicy.storedKeys manager.policy)
  { manager with
    policy := CachePolicy.clear manager.policy
    numEvictableCacheBlocks := 0
    numWritePendingBlocks := 0
    freeList := []
    numAllocatedBlocks := 0 }

def takeEvents (manager : CPUOffloadingManager P) :
    List OffloadingEvent × CPUOffloadingManager P :=
  match manager.events with
  | none => ([], manager)
  | some events => (events, { manager with events := some [] })

end CPUOffloadingManager

end KvOffload.CpuManager
