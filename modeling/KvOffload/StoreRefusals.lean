import KvOffload.EvictableCounts

/-!
# Refused stores

A refused store leaves everything but the call statistics alone. Whether it is refused is
not decided by the idle keys outside the input: the reuse gate lets go of protected keys,
and ARC looks no further into `t1` than its target, so that it may run out of candidates
while `t1` still holds idle keys.
-/

namespace KvOffload.StoreRefusals

open KvOffload KvOffload.Base KvOffload.PolicyInterface KvOffload.LruPolicy
open KvOffload.ArcPolicy KvOffload.CpuManager KvOffload.CpuPool KvOffload.PolicyMoves
open KvOffload.CpuManagerMoves KvOffload.EventRuns KvOffload.CpuHistories
open KvOffload.ArcRepresentation KvOffload.EvictionOrder KvOffload.BatchEviction
open KvOffload.StoreAdmission KvOffload.StoreInputs KvOffload.EvictableCounts

set_option autoImplicit false

section Calls

variable {P : Type} [CachePolicy P]

/-- The call returns, and returns `None` only for want of blocks: past the cap of a call or
with too few idle keys outside the input. A call that returns `None` changes nothing but
its statistics. -/
structure AdmitsExactly (manager : CPUOffloadingManager P) (keys : List OffloadKey)
    (bypassThreshold : Bool) : Prop where
  returns : ∃ result, manager.prepareStore keys bypassThreshold = .ok result
  refused_iff : (∃ after, manager.prepareStore keys bypassThreshold = .ok (none, after)) ↔
    0 < deficit manager keys bypassThreshold ∧
      (Capped manager (deficit manager keys bypassThreshold) ∨
        ((idleOutside manager keys).length : Int) < deficit manager keys bypassThreshold)
  atomic : ∀ after, manager.prepareStore keys bypassThreshold = .ok (none, after) →
    SameStore manager after

/-- A store that is short of blocks and within the cap. -/
def Evicting (manager : CPUOffloadingManager P) (keys : List OffloadKey)
    (bypassThreshold : Bool) : Prop :=
  0 < deficit manager keys bypassThreshold ∧
    ¬Capped manager (deficit manager keys bypassThreshold)

variable [LawfulCachePolicy P] [OrderedEviction P] {manager : CPUOffloadingManager P}

/-- The queue is never longer than the counter says. -/
theorem order_le_counter (inv : LawfulCachePolicy.Inv manager.policy)
    (counted : Counted manager) (guarded : List OffloadKey) :
    ((OrderedEviction.order guarded manager.policy).length : Int) ≤
      manager.numEvictableCacheBlocks := by
  obtain ⟨distinct, queued⟩ := order_spec inv guarded
  have within : OrderedEviction.order guarded manager.policy ⊆ idleOutside manager [] := by
    intro key member
    rw [mem_idle_outside inv]
    exact ⟨List.not_mem_nil, (queued key member).2⟩
  rw [counted_eq_idle inv counted]
  exact_mod_cast (List.Nodup.subperm distinct within).length_le

theorem prepare_store_cases (inv : LawfulCachePolicy.Inv manager.policy)
    (bounded : manager.numAllocatedBlocks ≤ manager.numBlocks) (counted : Counted manager)
    (keys : List OffloadKey) (bypassThreshold : Bool) :
    (∃ after, manager.prepareStore keys bypassThreshold = .ok (none, after) ∧
        SameStore manager after ∧ 0 < deficit manager keys bypassThreshold ∧
        (Capped manager (deficit manager keys bypassThreshold) ∨
          ((storeOrder manager keys bypassThreshold).length : Int) <
            deficit manager keys bypassThreshold)) ∨
      ∃ output after, manager.prepareStore keys bypassThreshold = .ok (some output, after) ∧
        ¬(0 < deficit manager keys bypassThreshold ∧
          (Capped manager (deficit manager keys bypassThreshold) ∨
            ((storeOrder manager keys bypassThreshold).length : Int) <
              deficit manager keys bypassThreshold)) := by
  have queue := order_le_counter inv counted (passingKeys manager keys bypassThreshold)
  by_cases present : missingKeys manager keys bypassThreshold = []
  · right
    refine ⟨_, _, prepare_store_present present, ?_⟩
    unfold deficit CPUOffloadingManager.getNumFreeBlocks
    rw [present, List.length_nil]
    omega
  · by_cases overdrawn : Overdrawn manager (passingKeys manager keys bypassThreshold)
        (deficit manager keys bypassThreshold)
    · left
      obtain ⟨after, refused, same⟩ := prepare_store_refused inv present overdrawn
      refine ⟨after, refused, same, overdrawn.1, ?_⟩
      rcases overdrawn.2 with capped | counter | order
      · exact .inl capped
      · exact .inr (lt_of_le_of_lt queue counter)
      · exact .inr order
    · right
      obtain ⟨output, after, granted, _⟩ := prepare_store_granted inv bounded present overdrawn
      refine ⟨output, after, granted, ?_⟩
      intro excess
      exact overdrawn ⟨excess.1, excess.2.imp_right .inr⟩

/-- Refusals are exact when the queue of an evicting store is long enough just in case the
idle keys outside the input are many enough. -/
theorem admits_exactly_iff (inv : LawfulCachePolicy.Inv manager.policy)
    (bounded : manager.numAllocatedBlocks ≤ manager.numBlocks) (counted : Counted manager)
    (keys : List OffloadKey) (bypassThreshold : Bool) :
    AdmitsExactly manager keys bypassThreshold ↔
      (Evicting manager keys bypassThreshold →
        (((storeOrder manager keys bypassThreshold).length : Int) <
            deficit manager keys bypassThreshold ↔
          ((idleOutside manager keys).length : Int) < deficit manager keys bypassThreshold)) := by
  rcases prepare_store_cases inv bounded counted keys bypassThreshold with
    ⟨after, refused, same, short, excess⟩ | ⟨output, after, granted, covered⟩
  · have isRefused : ∃ after, manager.prepareStore keys bypassThreshold = .ok (none, after) :=
      ⟨after, refused⟩
    constructor
    · intro exact evicting
      have blocked := (exact.refused_iff.mp isRefused).2
      exact iff_of_true (excess.resolve_left evicting.2) (blocked.resolve_left evicting.2)
    · intro agree
      refine ⟨⟨_, refused⟩, iff_of_true isRefused ⟨short, ?_⟩, ?_⟩
      · by_cases capped : Capped manager (deficit manager keys bypassThreshold)
        · exact .inl capped
        · exact .inr ((agree ⟨short, capped⟩).mp (excess.resolve_left capped))
      · intro last prepared
        cases refused.symm.trans prepared
        exact same
  · have notRefused : ¬∃ after, manager.prepareStore keys bypassThreshold = .ok (none, after) := by
      intro refused
      obtain ⟨last, prepared⟩ := refused
      cases granted.symm.trans prepared
    constructor
    · intro exact evicting
      have free := mt exact.refused_iff.mpr notRefused
      apply iff_of_false
      · exact fun less => covered ⟨evicting.1, .inr less⟩
      · exact fun less => free ⟨evicting.1, .inr less⟩
    · intro agree
      refine ⟨⟨_, granted⟩, iff_of_false notRefused ?_, ?_⟩
      · intro blocked
        obtain ⟨short, excess⟩ := blocked
        by_cases capped : Capped manager (deficit manager keys bypassThreshold)
        · exact covered ⟨short, .inl capped⟩
        · exact covered ⟨short, .inr ((agree ⟨short, capped⟩).mpr (excess.resolve_left capped))⟩
      · intro last prepared
        exact absurd ⟨last, prepared⟩ notRefused

end Calls

theorem lru_order_length {manager : CPUOffloadingManager LRUCachePolicy}
    (inv : EvictableIffIdle manager.policy) (guarded : List OffloadKey) :
    (OrderedEviction.order guarded manager.policy).length =
      (idleOutside manager guarded).length := by
  have lawfulInv : LawfulCachePolicy.Inv manager.policy := inv
  obtain ⟨distinct, queued⟩ := order_spec lawfulInv guarded
  have nodup : (idleOutside manager guarded).Nodup :=
    (LawfulCachePolicy.stored_nodup lawfulInv).filter _
  apply List.Perm.length_eq
  rw [List.perm_ext_iff_of_nodup distinct nodup]
  intro key
  rw [mem_idle_outside lawfulInv]
  constructor
  · exact queued key
  · intro idle
    obtain ⟨outside, block, stored, zero⟩ := idle
    have evictable := (inv key).mpr ⟨block, stored, zero⟩
    apply List.mem_map.mpr
    refine ⟨(key, block), ?_, rfl⟩
    unfold lruOrder idleEntries lruEntries
    rw [List.mem_filter, List.mem_filterMap]
    refine ⟨⟨key, evictable, ?_⟩, ?_⟩
    · unfold entryOf
      rw [show manager.policy.blocks.get? key = some block from stored]
      rfl
    · simp [zero, outside]

/-- The idle keys ARC can reach: those of `t1` down to the target, and all of `t2`. -/
def arcReach (guarded : List OffloadKey) (policy : ARCCachePolicy) : Nat :=
  min (t1Quota policy) (idleEntries guarded policy.t1.entries).length +
    (idleEntries guarded policy.t2.entries).length

theorem arc_order_length (guarded : List OffloadKey) (policy : ARCCachePolicy) :
    (OrderedEviction.order guarded policy).length = arcReach guarded policy := by
  have order : OrderedEviction.order guarded policy =
      (arcOrder guarded policy).map fun candidate => candidate.1.1 := rfl
  rw [order, List.length_map]
  simp [arcOrder, selectionOrder, tagged, arcReach]

/-- In every history, for any input: LRU misjudges an evicting store only by the keys the
gate has dropped, ARC also by the idle keys of `t1` beyond its target. -/
theorem lru_and_arc_admit_iff (params : CpuManagerParams) (cacheCapacity : Nat)
    (rounding : FloatRounding.Rounding) (keys : List OffloadKey) (bypassThreshold : Bool) :
    (∀ history, CpuHistory.Reached params (LRUCachePolicy.new cacheCapacity) history →
        (AdmitsExactly history.manager keys bypassThreshold ↔
          (Evicting history.manager keys bypassThreshold →
            (((idleOutside history.manager
                (passingKeys history.manager keys bypassThreshold)).length : Int) <
                  deficit history.manager keys bypassThreshold ↔
              ((idleOutside history.manager keys).length : Int) <
                deficit history.manager keys bypassThreshold)))) ∧
      ∀ history, CpuHistory.Reached params (ARCCachePolicy.new cacheCapacity rounding) history →
        (AdmitsExactly history.manager keys bypassThreshold ↔
          (Evicting history.manager keys bypassThreshold →
            ((arcReach (passingKeys history.manager keys bypassThreshold)
                history.manager.policy : Int) < deficit history.manager keys bypassThreshold ↔
              ((idleOutside history.manager keys).length : Int) <
                deficit history.manager keys bypassThreshold))) := by
  constructor
  · intro history reached
    have inv : EvictableIffIdle history.manager.policy :=
      reached_tracked (lru_new_tracked cacheCapacity) reached
    have bound := reached_bound (lru_new_tracked cacheCapacity) (fun _ => rfl) reached
    have counted := reached_counted (lru_new_tracked cacheCapacity) (fun _ => rfl) reached
    rw [← lru_order_length inv]
    exact admits_exactly_iff inv bound.bounded counted keys bypassThreshold
  · intro history reached
    have inv : ArcInv history.manager.policy := reached_tracked (new_inv cacheCapacity rounding) reached
    have bound := reached_bound (new_inv cacheCapacity rounding) (fun _ => rfl) reached
    have counted := reached_counted (new_inv cacheCapacity rounding) (fun _ => rfl) reached
    rw [← arc_order_length]
    exact admits_exactly_iff (TrackedPolicy.lawful inv) bound.bounded counted keys bypassThreshold

/-- Whether a store is accepted, what it is short of, and the idle keys outside its input. -/
def admission {P : Type} [CachePolicy P] (manager : CPUOffloadingManager P)
    (keys : List OffloadKey) : Option Bool × Int × Nat :=
  ((manager.prepareStore keys false).toOption.map fun result => result.1.isSome,
    deficit manager keys false, (idleOutside manager keys).length)

theorem accepted_beyond {P : Type} [CachePolicy P] {manager : CPUOffloadingManager P}
    {keys : List OffloadKey} {short : Int} {idle : Nat}
    (seen : admission manager keys = (some true, short, idle)) (positive : 0 < short)
    (few : (idle : Int) < short) : ¬AdmitsExactly manager keys false := by
  unfold admission at seen
  simp only [Prod.mk.injEq] at seen
  obtain ⟨accepted, short_eq, idle_eq⟩ := seen
  subst short_eq idle_eq
  intro exact
  obtain ⟨after, refused⟩ := exact.refused_iff.mpr ⟨positive, .inr few⟩
  rw [refused] at accepted
  cases accepted

theorem refused_within {P : Type} [CachePolicy P] {manager : CPUOffloadingManager P}
    {keys : List OffloadKey} {short : Int} {idle : Nat}
    (seen : admission manager keys = (some false, short, idle))
    (uncapped : ¬Capped manager short) (enough : short ≤ idle) :
    ¬AdmitsExactly manager keys false := by
  unfold admission at seen
  simp only [Prod.mk.injEq] at seen
  obtain ⟨refused, short_eq, idle_eq⟩ := seen
  subst short_eq idle_eq
  intro exact
  obtain ⟨⟨output, after⟩, returned⟩ := exact.returns
  rw [returned] at refused
  cases output with
  | some output => cases refused
  | none =>
      have blocked := (exact.refused_iff.mp ⟨after, returned⟩).2
      have few := blocked.resolve_left uncapped
      omega

/-- Two blocks: the target grows to two by two touches of the evicted first key, the second
key is in use, and the third is idle in `t1`, below the target. -/
def belowTargetEvents : List CpuEvent :=
  [.prepareStore [⟨[1], 0⟩, ⟨[2], 0⟩] false, .completeStore [⟨[1], 0⟩, ⟨[2], 0⟩] true,
    .prepareStore [⟨[3], 0⟩] false, .completeStore [⟨[3], 0⟩] true,
    .touch [⟨[1], 0⟩], .touch [⟨[1], 0⟩], .touch [⟨[2], 0⟩], .prepareLoad [⟨[2], 0⟩]]

/-- LRU evicts a key of the input; ARC refuses a store with an idle key to evict. -/
theorem stores_misjudged :
    (∃ history : CpuHistory LRUCachePolicy,
      CpuHistory.Reached { numBlocks := 1, storeThreshold := 2 } (LRUCachePolicy.new 1) history ∧
        ¬AdmitsExactly history.manager [⟨[1], 0⟩, ⟨[2], 0⟩] false) ∧
      ∃ history : CpuHistory ARCCachePolicy,
        CpuHistory.Reached { numBlocks := 2 } (ARCCachePolicy.new 2 FloatRounding.doubles) history ∧
          ¬AdmitsExactly history.manager [⟨[4], 0⟩] false := by
  constructor
  · have replayed : (EventRuns.replay CpuHistory.apply (fun _ _ => True)
        (CpuHistory.start { numBlocks := 1, storeThreshold := 2 } (LRUCachePolicy.new 1))
        bypassEvents).map (fun history =>
          admission history.manager [⟨[1], 0⟩, ⟨[2], 0⟩]) = some (some true, 1, 0) := by
      decide +kernel
    obtain ⟨history, reached, seen⟩ := EventRuns.exists_of_replay replayed
    exact ⟨history, reached, accepted_beyond seen (by omega) (by omega)⟩
  · have replayed : (EventRuns.replay CpuHistory.apply (fun _ _ => True)
        (CpuHistory.start { numBlocks := 2 } (ARCCachePolicy.new 2 FloatRounding.doubles)) belowTargetEvents).map
        (fun history => (admission history.manager [⟨[4], 0⟩],
          history.manager.evictionCallCap)) = some ((some false, 1, 1), 2000) := by
      decide +kernel
    obtain ⟨history, reached, seen⟩ := EventRuns.exists_of_replay replayed
    simp only [Prod.mk.injEq] at seen
    obtain ⟨admitted, cap⟩ := seen
    refine ⟨history, reached, @refused_within _ _ _ _ 1 1 ?_ ?_ (by omega)⟩
    · unfold admission at admitted ⊢
      simpa only [Prod.mk.injEq] using admitted
    · unfold Capped
      rw [cap]
      omega

/-- A full pool with one idle key admits a store of one key by evicting it. -/
theorem full_pool_admits : ∃ history : CpuHistory ARCCachePolicy,
    CpuHistory.Reached { numBlocks := 2 } (ARCCachePolicy.new 2 FloatRounding.doubles) history ∧
      (deficit history.manager [⟨[3], 0⟩] false, idleOutside history.manager [⟨[3], 0⟩]) =
        (1, [⟨[2], 0⟩]) ∧
      AdmitsExactly history.manager [⟨[3], 0⟩] false := by
  have replayed : (EventRuns.replay CpuHistory.apply (fun _ _ => True)
      (CpuHistory.start { numBlocks := 2 } (ARCCachePolicy.new 2 FloatRounding.doubles))
      [.prepareStore [⟨[1], 0⟩, ⟨[2], 0⟩] false, .completeStore [⟨[2], 0⟩] true]).map
      (fun history => ((deficit history.manager [⟨[3], 0⟩] false,
        idleOutside history.manager [⟨[3], 0⟩]),
        arcReach (passingKeys history.manager [⟨[3], 0⟩] false) history.manager.policy)) =
      some ((1, [⟨[2], 0⟩]), 1) := by
    decide +kernel
  obtain ⟨history, reached, seen⟩ := EventRuns.exists_of_replay replayed
  simp only [Prod.mk.injEq] at seen
  obtain ⟨⟨short, idle⟩, reach⟩ := seen
  refine ⟨history, reached, by rw [short, idle], ?_⟩
  apply ((lru_and_arc_admit_iff _ 2 FloatRounding.doubles _ false).2 history reached).mpr
  intro _
  rw [reach, short, idle]
  exact Iff.rfl

end KvOffload.StoreRefusals
