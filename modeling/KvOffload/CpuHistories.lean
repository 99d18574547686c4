import KvOffload.CpuManagerMoves
import KvOffload.EventRuns

/-!
# Histories of the CPU manager

A history is the manager after some calls, in any order and with any keys, with the
events its caller took and a log of the uses of the keys. Neither the taken events
nor the log is read by the manager. A call that raises ends the history.
-/

namespace KvOffload.CpuHistories

open KvOffload KvOffload.Base KvOffload.PolicyInterface KvOffload.CpuManager
open KvOffload.CpuPool KvOffload.CpuManagerSpec KvOffload.PolicyMoves
open KvOffload.CpuManagerMoves KvOffload.EventRuns

set_option autoImplicit false

/-- Every use has a time of its own; `lastUse` is the latest time of a key. -/
structure UseLog where
  now : Nat
  lastUse : OffloadKey → Nat

def UseLog.start : UseLog := ⟨0, fun _ => 0⟩

def UseLog.note (log : UseLog) (key : OffloadKey) : UseLog :=
  ⟨log.now + 1, fun other => if other = key then log.now + 1 else log.lastUse other⟩

def UseLog.noteAll (log : UseLog) (keys : List OffloadKey) : UseLog := keys.foldl note log

inductive CpuEvent where
  | lookup (key : OffloadKey)
  | touch (keys : List OffloadKey)
  | prepareStore (keys : List OffloadKey) (bypassThreshold : Bool)
  | completeStore (keys : List OffloadKey) (success : Bool)
  | prepareLoad (keys : List OffloadKey)
  | completeLoad (keys : List OffloadKey)
  | resetCache
  | takeEvents

structure CpuHistory (P : Type) where
  manager : CPUOffloadingManager P
  uses : UseLog
  taken : List OffloadingEvent

variable {P : Type}

namespace CpuHistory

def called (history : CpuHistory P) (manager : CPUOffloadingManager P)
    (used : List OffloadKey) : CpuHistory P :=
  { history with manager := manager, uses := history.uses.noteAll used }

/-- All events so far, taken or not. -/
def emitted (history : CpuHistory P) : List OffloadingEvent :=
  history.taken ++ history.manager.events.getD []

variable [CachePolicy P]

def start (params : CpuManagerParams) (policy : P) : CpuHistory P :=
  ⟨.new params policy, .start, []⟩

/-- Stored with reference count zero. -/
def idle (manager : CPUOffloadingManager P) (key : OffloadKey) : Bool :=
  (manager.get key).any fun block => block.refCnt = 0

/-- A store is a use of the keys it publishes, a load of the keys it is the last
to leave, and a touch of the idle keys of its batch, the first key last. -/
def apply (history : CpuHistory P) : CpuEvent → Except PyError (CpuHistory P)
  | .lookup key => do
      let (_, manager) ← history.manager.lookup key
      .ok (history.called manager [])
  | .touch keys =>
      .ok (history.called (history.manager.touch keys)
        (keys.reverse.filter (idle history.manager)))
  | .prepareStore keys bypassThreshold => do
      let (_, manager) ← history.manager.prepareStore keys bypassThreshold
      .ok (history.called manager [])
  | .completeStore keys success => do
      let manager ← history.manager.completeStore keys success
      .ok (history.called manager
        (if success then (history.manager.publishBlocks keys).1 else []))
  | .prepareLoad keys => do
      let (_, manager) ← history.manager.prepareLoad keys
      .ok (history.called manager [])
  | .completeLoad keys => do
      let manager ← history.manager.completeLoad keys
      .ok (history.called manager (lastLoads history.manager keys))
  | .resetCache => .ok (history.called history.manager.resetCache [])
  | .takeEvents =>
      let (events, manager) := history.manager.takeEvents
      .ok { history with manager := manager, taken := history.taken ++ events }

/-- Histories of a fresh manager. -/
def Reached (params : CpuManagerParams) (policy : P) (history : CpuHistory P) : Prop :=
  Reaches apply (fun _ _ => True) (start params policy) history

end CpuHistory

/-- A stored event adds its keys, a removal event deletes them. -/
def replayEvent (stored : Finset OffloadKey) (event : OffloadingEvent) : Finset OffloadKey :=
  if event.removed then stored \ event.keys.toFinset else stored ∪ event.keys.toFinset

def replayEvents (events : List OffloadingEvent) : Finset OffloadKey :=
  events.foldl replayEvent ∅

theorem take_events_same (manager : CPUOffloadingManager P) :
    SamePool manager manager.takeEvents.2 := by
  unfold CPUOffloadingManager.takeEvents
  split
  · exact same_pool_refl manager
  · exact ⟨rfl, rfl, rfl, rfl, rfl, rfl⟩

section Calls

variable [CachePolicy P]

/-- The events lead from the keys that are ready before to those ready after. -/
def Mirrors (before : P) (emitted : List OffloadingEvent) (after : P) : Prop :=
  ∀ stored : Finset OffloadKey, (∀ key, key ∈ stored ↔ Ready before key) →
    ∀ key, key ∈ emitted.foldl replayEvent stored ↔ Ready after key

theorem mirrors_silent {before after : P} (same : ∀ key, Ready after key ↔ Ready before key) :
    Mirrors before [] after :=
  fun _ agrees key => (agrees key).trans (same key).symm

variable [LawfulCachePolicy P] [TrackedPolicy P]

open TrackedPolicy

/-- Neither publishes nor evicts. -/
def Calm : Move → Prop
  | .evict .. => False
  | .release _ => False
  | _ => True

theorem calm_moves_ready {policy after : P} {moves : List Move} (tracked : Tracked policy)
    (calm : ∀ move ∈ moves, Calm move) (moved : Moves policy moves after) (key : OffloadKey) :
    Ready after key ↔ Ready policy key := by
  induction moves generalizing policy with
  | nil =>
      obtain rfl := moved
      rfl
  | cons move rest ih =>
      obtain ⟨middle, first, later⟩ := moved
      rw [ih (tracked_moved tracked first) (fun other member => calm other (.tail _ member)) later,
        ready_moved tracked first]
      have this := calm move List.mem_cons_self
      cases move <;> first | rfl | cases this

theorem release_moves_ready {policy after : P} {keys : List OffloadKey}
    (tracked : Tracked policy) (moved : Moves policy (keys.map .release) after)
    (key : OffloadKey) : Ready after key ↔ Ready policy key ∨ key ∈ keys := by
  induction keys generalizing policy with
  | nil =>
      obtain rfl := moved
      simp
  | cons released rest ih =>
      obtain ⟨middle, first, later⟩ := moved
      rw [ih (tracked_moved tracked first) later, ready_moved tracked first]
      simp only [Move.readyAfter, List.mem_cons]
      exact or_assoc

theorem load_moves_ready (keys : List OffloadKey) {manager after : CPUOffloadingManager P}
    (tracked : Tracked manager.policy) (completed : manager.completeLoad keys = .ok after)
    (key : OffloadKey) : Ready after.policy key ↔ Ready manager.policy key := by
  induction keys generalizing manager with
  | nil =>
      cases completed
      rfl
  | cons loaded rest ih =>
      obtain ⟨middle, unpinned, completed⟩ := bind_eq_ok.mp completed
      obtain ⟨move, performed, kind, last⟩ := unpin_block_performed unpinned
      rw [ih (tracked_moves tracked performed.policy) completed]
      obtain ⟨policy, moved, same⟩ := performed.policy
      obtain rfl := same
      rw [ready_moved tracked moved]
      rcases kind with rfl | rfl
      · rfl
      · obtain ⟨block, stored, held⟩ := last.mp rfl
        simp only [Move.readyAfter, or_iff_left_iff_imp]
        rintro rfl
        exact ⟨block, stored, by omega⟩

theorem stored_mirrors {before after : P} {keys : List OffloadKey} {medium : Medium}
    (tracked : Tracked before) (moved : Moves before (keys.map .release) after) :
    Mirrors before (if keys = [] then [] else [⟨keys, medium, false⟩]) after := by
  intro stored agrees key
  rw [release_moves_ready tracked moved, ← agrees]
  split
  · rename_i nothing
    simp [nothing]
  · simp [replayEvent]

theorem evicted_mirrors {before after : P} {keys missing : List OffloadKey} {medium : Medium}
    {count : Nat} {guarded : List OffloadKey} {victims : Victims}
    (tracked : Tracked before) (evicts : keys = victims.map Prod.fst)
    (moved : Moves before (.evict count guarded victims :: missing.map .reserve) after) :
    Mirrors before [⟨keys, medium, true⟩] after := by
  intro stored agrees key
  obtain ⟨middle, first, later⟩ := moved
  have calm : ∀ move ∈ missing.map Move.reserve, Calm move := by
    intro move member
    obtain ⟨reserved, _, rfl⟩ := List.mem_map.mp member
    trivial
  rw [calm_moves_ready (tracked_moved tracked first) calm later, ready_moved tracked first]
  simp only [replayEvent, List.foldl_cons, List.foldl_nil, if_true, Finset.mem_sdiff,
    List.mem_toFinset, agrees, Move.readyAfter, evicts]

/-- The events that neither reset nor drain. -/
def Plain : CpuEvent → Prop
  | .resetCache => False
  | .takeEvents => False
  | _ => True

/-- Every plain call is moves of the policy whose events mirror the ready keys. -/
theorem apply_call {history after : CpuHistory P} {event : CpuEvent} (plain : Plain event)
    (tracked : Tracked history.manager.policy) (applied : history.apply event = .ok after) :
    after.taken = history.taken ∧ ∃ moves emitted,
      Performed history.manager moves emitted after.manager ∧
        Mirrors history.manager.policy emitted after.manager.policy := by
  cases event with
  | lookup key =>
      obtain ⟨⟨result, manager⟩, looked, done⟩ := bind_eq_ok.mp applied
      cases done
      have performed := lookup_performed looked
      exact ⟨rfl, [], [], performed,
        mirrors_silent (calm_moves_ready tracked (by simp) performed.policy)⟩
  | touch keys =>
      cases applied
      have performed := @touch_performed P _ history.manager keys
      exact ⟨rfl, _, [], performed,
        mirrors_silent (calm_moves_ready tracked (by simp [Calm]) performed.policy)⟩
  | prepareStore keys bypassThreshold =>
      obtain ⟨⟨output, manager⟩, prepared, done⟩ := bind_eq_ok.mp applied
      cases done
      refine ⟨rfl, ?_⟩
      cases prepare_store_performed tracked prepared with
      | refused performed =>
          exact ⟨[], [], performed,
            mirrors_silent (calm_moves_ready tracked (by simp) performed.policy)⟩
      | roomy stores evicts fits performed =>
          exact ⟨_, [], performed,
            mirrors_silent (calm_moves_ready tracked (by simp [Calm]) performed.policy)⟩
      | evicting stores evicts short performed =>
          exact ⟨_, _, performed, evicted_mirrors tracked evicts performed.policy⟩
  | completeStore keys success =>
      obtain ⟨manager, completed, done⟩ := bind_eq_ok.mp applied
      cases done
      refine ⟨rfl, ?_⟩
      rcases complete_store_performed completed with
        ⟨_, performed⟩ | ⟨_, moves, performed, kinds⟩
      · exact ⟨_, _, performed, stored_mirrors tracked performed.policy⟩
      · refine ⟨moves, [], performed, mirrors_silent (calm_moves_ready tracked ?_ performed.policy)⟩
        intro move member
        obtain ⟨key, rfl⟩ := kinds move member
        trivial
  | prepareLoad keys =>
      obtain ⟨⟨blockIds, manager⟩, loaded, done⟩ := bind_eq_ok.mp applied
      cases done
      obtain ⟨moves, performed, kinds⟩ := prepare_load_performed keys loaded
      refine ⟨rfl, moves, [], performed,
        mirrors_silent (calm_moves_ready tracked ?_ performed.policy)⟩
      intro move member
      obtain ⟨key, rfl | rfl⟩ := kinds move member <;> trivial
  | completeLoad keys =>
      obtain ⟨manager, completed, done⟩ := bind_eq_ok.mp applied
      cases done
      obtain ⟨moves, performed, _, _⟩ := complete_load_performed keys completed
      exact ⟨rfl, moves, [], performed, mirrors_silent (load_moves_ready keys tracked completed)⟩
  | resetCache => cases plain
  | takeEvents => cases plain

theorem live_moves {moves : List Move} {policy after : P} (tracked : Tracked policy)
    (moved : Moves policy moves after) :
    ((CachePolicy.storedKeys after).length : Int) + droppedBlocks moves ≤
      (CachePolicy.storedKeys policy).length + reservedBlocks moves := by
  induction moves generalizing policy with
  | nil =>
      obtain rfl := moved
      simp [droppedBlocks, reservedBlocks]
  | cons move rest ih =>
      obtain ⟨middle, first, later⟩ := moved
      have step := live_moved tracked first
      have run := ih (tracked_moved tracked first) later
      simp only [droppedBlocks, reservedBlocks, List.map_cons, List.sum_cons] at run ⊢
      omega

/-- Stored keys and free blocks share the pool. -/
structure PoolBound (manager : CPUOffloadingManager P) : Prop where
  live : ((CachePolicy.storedKeys manager.policy).length : Int) + manager.getNumFreeBlocks ≤
    manager.numBlocks
  bounded : manager.numAllocatedBlocks ≤ manager.numBlocks

omit [LawfulCachePolicy P] [TrackedPolicy P] in
theorem stored_within_pool {manager : CPUOffloadingManager P} (bound : PoolBound manager) :
    (CachePolicy.storedKeys manager.policy).length ≤ manager.numBlocks := by
  have live := bound.live
  have bounded := bound.bounded
  simp only [CPUOffloadingManager.getNumFreeBlocks] at live
  omega

theorem performed_keeps_bound {manager after : CPUOffloadingManager P} {moves : List Move}
    {emitted : List OffloadingEvent} (tracked : Tracked manager.policy)
    (bound : PoolBound manager) (performed : Performed manager moves emitted after) :
    PoolBound after := by
  have live := live_moves tracked performed.policy
  have balance := performed.balance
  have before := bound.live
  constructor
  · rw [performed.numBlocks]
    omega
  · rw [performed.numBlocks]
    exact performed.bounded bound.bounded

omit [LawfulCachePolicy P] [TrackedPolicy P] in
theorem same_keeps_bound {manager after : CPUOffloadingManager P} (same : SamePool manager after)
    (bound : PoolBound manager) : PoolBound after := by
  constructor
  · rw [CPUOffloadingManager.getNumFreeBlocks, same.policy, same.freeList, same.numBlocks,
      same.allocated]
    exact bound.live
  · rw [same.numBlocks, same.allocated]
    exact bound.bounded

omit [LawfulCachePolicy P] [TrackedPolicy P] in
theorem reset_cache_fields (manager : CPUOffloadingManager P) :
    manager.resetCache.policy = CachePolicy.clear manager.policy ∧
      manager.resetCache.numBlocks = manager.numBlocks := by
  have same := reset_events_same manager (CachePolicy.storedKeys manager.policy)
  exact ⟨congrArg CachePolicy.clear same.policy, same.numBlocks⟩

/-- A policy without keys in a pool without allocated blocks. -/
theorem empty_bound {manager : CPUOffloadingManager P} (tracked : Tracked manager.policy)
    (empty : ∀ key, CachePolicy.get manager.policy key = none) (freeList : manager.freeList = [])
    (allocated : manager.numAllocatedBlocks = 0) : PoolBound manager := by
  have none : CachePolicy.storedKeys manager.policy = [] := by
    rw [List.eq_nil_iff_forall_not_mem]
    intro key member
    rw [LawfulCachePolicy.mem_stored (lawful tracked), empty] at member
    cases member
  constructor
  · rw [CPUOffloadingManager.getNumFreeBlocks, none, freeList, allocated]
    simp
  · rw [allocated]
    exact Nat.zero_le _

end Calls

end KvOffload.CpuHistories
