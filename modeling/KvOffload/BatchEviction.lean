import KvOffload.EvictionOrder

/-!
# Batch eviction

An eviction of several blocks is the same as evictions of one block each, in every state of
a policy that a history of the manager reaches. A failed eviction leaves the policy alone.
-/

namespace KvOffload.BatchEviction

open KvOffload KvOffload.Base KvOffload.PolicyInterface KvOffload.LruPolicy
open KvOffload.ArcPolicy KvOffload.CpuManager KvOffload.PolicyMoves KvOffload.CpuManagerMoves
open KvOffload.EventRuns KvOffload.CpuHistories KvOffload.ArcRepresentation
open KvOffload.QueueBatches KvOffload.EvictionOrder

set_option autoImplicit false

section Calls

variable {P : Type} [CachePolicy P]

/-- What `evict` returns, and the policy object after the call. -/
def evictCall (guarded : List OffloadKey) (count : Nat) (policy : P) :
    Except PyError (Option Victims × P) := do
  match ← CachePolicy.evict policy count guarded with
  | none => .ok (none, policy)
  | some (victims, after) => .ok (some victims, after)

/-- Evictions of one block each, until one fails. -/
def evictSuccessively (guarded : List OffloadKey) :
    Nat → P → Except PyError (Option (Victims × P))
  | 0, policy => .ok (some ([], policy))
  | count + 1, policy => do
      match ← evictCall guarded 1 policy with
      | (none, _) => .ok none
      | (some first, middle) => do
          match ← evictSuccessively guarded count middle with
          | none => .ok none
          | some (rest, after) => .ok (some (first ++ rest, after))

/-- A batch returns the blocks of the single evictions and leaves their state, or nothing
and its own state when one of them fails. -/
def BatchIsSuccessive (policy : P) : Prop :=
  ∀ guarded count, ∃ result, evictSuccessively guarded count policy = .ok result ∧
    evictCall guarded count policy = .ok (match result with
      | none => (none, policy)
      | some (victims, after) => (some victims, after))

variable {Item : Type} {queue : List OffloadKey → Queue P Item} {Inv : P → Prop}
  {victim : Item → OffloadKey × BlockStatus} {policy : P}

/-- The single evictions of a policy that evicts from a queue. -/
theorem evict_successively_queue (guarded : List OffloadKey)
    (evicts : ∀ policy count, (queue guarded).Inv policy →
      CachePolicy.evict policy count guarded = .ok (((queue guarded).batch count policy).map
        fun evicted => (evicted.1.map victim, evicted.2)))
    (inv : (queue guarded).Inv policy) (count : Nat) :
    evictSuccessively guarded count policy = .ok (((queue guarded).successive count policy).map
      fun evicted => (evicted.1.map victim, evicted.2)) := by
  induction count generalizing policy with
  | zero => rfl
  | succ count ih =>
      unfold evictSuccessively evictCall Queue.successive
      rw [evicts policy 1 inv]
      cases order : (queue guarded).order policy with
      | nil =>
          rw [(queue guarded).batch_of_empty order]
          rfl
      | cons item rest =>
          rw [(queue guarded).batch_one order]
          simp only [Option.map_some, ok_bind, Option.bind_eq_bind, Option.bind_some,
            ih ((queue guarded).inv_step inv order)]
          cases (queue guarded).successive count
              ((queue guarded).finish ((queue guarded).drop policy item)) with
          | none => rfl
          | some later => rfl

theorem batch_is_successive
    (evicts : ∀ guarded policy count, (queue guarded).Inv policy →
      CachePolicy.evict policy count guarded = .ok (((queue guarded).batch count policy).map
        fun evicted => (evicted.1.map victim, evicted.2)))
    (inv : ∀ guarded, (queue guarded).Inv policy) : BatchIsSuccessive policy := by
  intro guarded count
  refine ⟨_, evict_successively_queue guarded (evicts guarded) (inv guarded) count, ?_⟩
  unfold evictCall
  rw [evicts guarded policy count (inv guarded),
    (queue guarded).batch_eq_successive (inv guarded)]
  cases (queue guarded).successive count policy with
  | none => rfl
  | some evicted => rfl

end Calls

theorem lru_batch_is_successive {policy : LRUCachePolicy} (inv : EvictableIffIdle policy) :
    BatchIsSuccessive policy := by
  apply @batch_is_successive _ _ _ lruQueue id
  · intro guarded policy count inv
    have evicted : CachePolicy.evict policy count guarded = _ := lru_evict_batch inv guarded count
    rw [evicted]
    simp
  · exact fun _ => inv

theorem arc_batch_is_successive {policy : ARCCachePolicy} (shape : ArcShape policy) :
    BatchIsSuccessive policy := by
  apply @batch_is_successive _ _ _ arcQueue Prod.fst
  · intro guarded policy count _
    exact congrArg Except.ok (arc_evict_batch guarded count)
  · exact fun _ => shape

section Histories

variable {P : Type} [CachePolicy P] [LawfulCachePolicy P] [TrackedPolicy P]

theorem apply_tracked {history after : CpuHistory P} {event : CpuEvent}
    (tracked : TrackedPolicy.Tracked history.manager.policy)
    (applied : history.apply event = .ok after) : TrackedPolicy.Tracked after.manager.policy := by
  by_cases plain : Plain event
  · obtain ⟨_, moves, emitted, performed, _⟩ := apply_call plain tracked applied
    exact tracked_moves tracked performed.policy
  · cases event with
    | resetCache =>
        cases applied
        exact TrackedPolicy.tracked_clear _
    | takeEvents =>
        have same := take_events_same history.manager
        cases applied
        show TrackedPolicy.Tracked history.manager.takeEvents.2.policy
        rw [same.policy]
        exact tracked
    | _ => exact absurd trivial plain

theorem reached_tracked {params : CpuManagerParams} {policy : P} {history : CpuHistory P}
    (tracked : TrackedPolicy.Tracked policy)
    (reached : CpuHistory.Reached params policy history) :
    TrackedPolicy.Tracked history.manager.policy :=
  @reaches_invariant _ _ _ _ _ (fun history => TrackedPolicy.Tracked history.manager.policy) _ _
    (fun _ _ _ inv _ applied => apply_tracked inv applied) tracked reached

end Histories

theorem lru_new_tracked (cacheCapacity : Nat) :
    EvictableIffIdle (LRUCachePolicy.new cacheCapacity) := by
  intro key
  simp [LRUCachePolicy.new]

/-- In every history, whatever its calls, a batch of either policy is its single evictions. -/
theorem lru_and_arc_batches_successive (params : CpuManagerParams) (cacheCapacity : Nat)
    (rounding : FloatRounding.Rounding) :
    (∀ history, CpuHistory.Reached params (LRUCachePolicy.new cacheCapacity) history →
        BatchIsSuccessive history.manager.policy) ∧
      ∀ history, CpuHistory.Reached params (ARCCachePolicy.new cacheCapacity rounding) history →
        BatchIsSuccessive history.manager.policy := by
  constructor
  · intro history reached
    have inv : EvictableIffIdle history.manager.policy :=
      reached_tracked (lru_new_tracked cacheCapacity) reached
    exact lru_batch_is_successive inv
  · intro history reached
    have inv : ArcInv history.manager.policy := reached_tracked (new_inv cacheCapacity rounding) reached
    exact arc_batch_is_successive inv.shape

/-- The ghost list of a pool of two blocks is full before a batch of two. -/
theorem full_ghosts_batch_successive : ∃ history : CpuHistory ARCCachePolicy,
    CpuHistory.Reached { numBlocks := 2 } (ARCCachePolicy.new 2 FloatRounding.doubles) history ∧
      (history.manager.policy.t1.keys, history.manager.policy.b1.keys) =
        ([⟨[9], 0⟩, ⟨[10], 0⟩], [⟨[7], 0⟩, ⟨[8], 0⟩]) ∧
      BatchIsSuccessive history.manager.policy := by
  have replayed : (EventRuns.replay CpuHistory.apply (fun _ _ => True)
      (CpuHistory.start { numBlocks := 2 } (ARCCachePolicy.new 2 FloatRounding.doubles))
      [.prepareStore [⟨[7], 0⟩, ⟨[8], 0⟩] false, .completeStore [⟨[7], 0⟩, ⟨[8], 0⟩] true,
        .prepareStore [⟨[9], 0⟩, ⟨[10], 0⟩] false,
        .completeStore [⟨[9], 0⟩, ⟨[10], 0⟩] true]).map
      (fun history => (history.manager.policy.t1.keys, history.manager.policy.b1.keys)) =
        some ([⟨[9], 0⟩, ⟨[10], 0⟩], [⟨[7], 0⟩, ⟨[8], 0⟩]) := by
    decide +kernel
  obtain ⟨history, reached, seen⟩ := EventRuns.exists_of_replay replayed
  exact ⟨history, reached, seen, (lru_and_arc_batches_successive _ 2 FloatRounding.doubles).2 history reached⟩

end KvOffload.BatchEviction
