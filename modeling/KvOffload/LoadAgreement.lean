import KvOffload.LoadTransfer
import KvOffload.ManagerRecords
import KvOffload.ResidentHits

/-!
# Lookup and load agree on chunks

The lookup confirms the last chunks of a window group, counted back from the boundary; the
load job takes the chunks from the first pending block on. For attention groups a load up to
the promised boundary names only keys that the lookup answered `HIT`, and enters without an
error, provided that no first pending block lies before the window. The stock manager pads
by tokens, so a boundary inside a chunk may leave one block more.
-/

namespace KvOffload.LoadAgreement

open KvOffload KvOffload.Base KvOffload.PolicyInterface KvOffload.CpuManager
open KvOffload.CpuPool KvOffload.CpuManagerSpec KvOffload.PolicyMoves KvOffload.Tiering
open KvOffload.PrimaryCalls KvOffload.ConnectorConfig KvOffload.ConnectorRequests
open KvOffload.ManagerInterface KvOffload.ManagerRecords KvOffload.ConnectorLookup
open KvOffload.ConnectorScheduler
open KvOffload.ConnectorLoads KvOffload.ConnectorRuns KvOffload.LookupCoverage
open KvOffload.LoadTransfer KvOffload.ResidentHits

set_option autoImplicit false

/-- The answers that a manager gave. -/
structure AnswerLog where
  answers : List (OffloadKey × LookupResult) := []

variable {M : Type}

instance : Recorder AnswerLog M where
  note log call _ _ :=
    match call with
    | .lookup key _ result => ⟨log.answers ++ [(key, result)]⟩
    | _ => log

/-- A manager with its answer log. -/
abbrev Noted (M : Type) := Recording AnswerLog M

def Noted.answers (manager : Noted M) : List (OffloadKey × LookupResult) := manager.record.answers

section Answers

variable [OffloadingManager M]

/-- The key was answered `HIT` after the first `base` answers. -/
def AnsweredHit (base : Nat) (manager : Noted M) (key : OffloadKey) : Prop :=
  (key, LookupResult.hit) ∈ manager.answers.drop base

/-- What a manager promises of its own hits, and that a load of such keys is accepted. -/
structure HitsServed (Valid : M → Prop) (Known : M → OffloadKey → Prop) : Prop
    extends LookupFacts Valid Known where
  serves : ∀ {manager : M} {keys : List OffloadKey}, Valid manager →
    (∀ key ∈ keys, Known manager key) →
      ∃ result, OffloadingManager.prepareLoad manager keys = .ok result

/-- Noting the answers adds to what a lookup tells. -/
theorem noted_facts {Valid : M → Prop} {Known : M → OffloadKey → Prop}
    (facts : LookupFacts Valid Known) (base : Nat) :
    LookupFacts (fun manager : Noted M => Valid manager.inner ∧ base ≤ manager.answers.length)
      fun manager key => Known manager.inner key ∧ AnsweredHit base manager key where
  hit {manager after key reqContext} valid looked := by
    obtain ⟨inner, innerLooked, rfl⟩ := lookup_told.mp looked
    refine ⟨facts.hit valid.1 innerLooked, ?_⟩
    show _ ∈ (manager.answers ++ [(key, LookupResult.hit)]).drop base
    rw [List.drop_append_of_le_length valid.2]
    exact List.mem_append_right _ List.mem_cons_self
  kept {manager after key other reqContext result} valid looked settled known := by
    obtain ⟨inner, innerLooked, rfl⟩ := lookup_told.mp looked
    refine ⟨facts.kept valid.1 innerLooked settled known.1, ?_⟩
    show _ ∈ (manager.answers ++ [_]).drop base
    rw [List.drop_append_of_le_length valid.2]
    exact List.mem_append_left _ known.2
  valid {manager after key reqContext result} valid looked := by
    obtain ⟨inner, innerLooked, rfl⟩ := lookup_told.mp looked
    refine ⟨facts.valid valid.1 innerLooked, valid.2.trans ?_⟩
    show _ ≤ (manager.answers ++ [_]).length
    rw [List.length_append]
    exact Nat.le_add_right _ _
  touch_kept valid known := ⟨facts.touch_kept valid.1 known.1, known.2⟩
  touch_valid valid := ⟨facts.touch_valid valid.1, valid.2⟩

theorem no_facts : LookupFacts (fun _ : M => True) fun _ _ => True where
  hit _ _ := trivial
  kept _ _ _ _ := trivial
  valid _ _ := trivial
  touch_kept _ _ := trivial
  touch_valid _ := trivial

end Answers

section Chunks

variable (config : SchedulerOffloadConfig) (numCachedTokens : Nat)
  (blocks : List (List KVCacheBlock)) (group : GroupOffloadConfig)

/-- The first block of the group that is loaded, or the number of its blocks. -/
def firstPending (groupBlocks : List KVCacheBlock) : Nat :=
  numLocallyComputed (groupBlocks.take (cdiv numCachedTokens group.tokensPerBlock))

/-- The chunk is loaded for the group. -/
def LoadsChunk (chunkIdx : Nat) : Prop :=
  ∃ groupBlocks, blocks[group.groupIdx]? = some groupBlocks ∧
    firstPending numCachedTokens group groupBlocks <
      cdiv numCachedTokens group.tokensPerBlock ∧
    firstPending numCachedTokens group groupBlocks / config.blocksPerChunk ≤ chunkIdx ∧
    chunkIdx < cdiv numCachedTokens group.tokensPerChunk

/-- Where a window group loads anything, its first pending block lies in one of the last
chunks that the window spans. -/
def PendingInWindow : Prop :=
  ∀ group ∈ config.kvGroupConfigs, ∀ window, group.slidingWindowSizeInChunks = some window →
    ∀ groupBlocks, blocks[group.groupIdx]? = some groupBlocks →
      firstPending numCachedTokens group groupBlocks <
        cdiv numCachedTokens group.tokensPerBlock →
      cdiv numCachedTokens group.tokensPerChunk ≤
        firstPending numCachedTokens group groupBlocks / config.blocksPerChunk + window

variable {config numCachedTokens blocks group} {status : RequestOffloadState}

/-- The keys of the load of one group are those of its loaded chunks. -/
theorem load_keys_chunks (member : group ∈ config.kvGroupConfigs)
    (complete : status.partialTailBoundary = none) {load : GroupLoad}
    (loaded : loadGroup config status numCachedTokens blocks group = .ok load)
    (key : OffloadKey) : key ∈ load.keys ↔
      ∃ chunkIdx, LoadsChunk config numCachedTokens blocks group chunkIdx ∧
        (status.groupStates group.groupIdx).offloadKeys[chunkIdx]? = some key := by
  obtain ⟨groupBlocks, found, spec⟩ := load_group_loaded member loaded
  have first : load.numLocallyComputedGpuBlocks =
      firstPending numCachedTokens group groupBlocks := spec.computed
  have covering : ∀ chunkIdx, coveringKey config status group
      (cdiv numCachedTokens group.tokensPerChunk) chunkIdx =
        (status.groupStates group.groupIdx).offloadKeys[chunkIdx]? := by
    intro chunkIdx
    simp only [coveringKey, complete]
  have length := spec.keys
  have pending := spec.pending
  constructor
  · intro inKeys
    obtain ⟨index, within, isKey⟩ := List.getElem_of_mem inKeys
    have some : load.numPendingGpuBlocks ≠ 0 := by
      intro none
      rw [if_pos none] at length
      omega
    rw [if_neg some] at length
    have positive : load.numLocallyComputedGpuBlocks <
        cdiv numCachedTokens group.tokensPerBlock := by omega
    have chunks := (pending_chunks (config.well_formed group member) config.blocks_pos
      positive).2
    rw [← pending, ← length] at chunks
    refine ⟨load.numLocallyComputedGpuBlocks / config.blocksPerChunk + index,
      ⟨groupBlocks, found, first ▸ positive, first ▸ Nat.le_add_right _ _, by omega⟩, ?_⟩
    rw [← covering, ← spec.covers index within, List.getElem?_eq_getElem within, isKey]
  · rintro ⟨chunkIdx, ⟨otherBlocks, otherFound, positive, lower, upper⟩, isKey⟩
    cases found.symm.trans otherFound
    rw [← first] at positive lower
    rw [if_neg (by omega)] at length
    have chunks := (pending_chunks (config.well_formed group member) config.blocks_pos
      positive).2
    rw [← pending, ← length] at chunks
    have within : chunkIdx - load.numLocallyComputedGpuBlocks / config.blocksPerChunk <
        load.keys.length := by omega
    have covered := spec.covers _ within
    rw [Nat.add_sub_cancel' lower, covering, isKey] at covered
    exact List.mem_of_getElem? covered

/-- Nothing before the locally computed tokens is loaded. -/
theorem load_starts_behind (member : group ∈ config.kvGroupConfigs) {load : GroupLoad}
    (loaded : loadGroup config status numCachedTokens blocks group = .ok load) {chunkIdx : Nat}
    (loads : LoadsChunk config numCachedTokens blocks group chunkIdx) :
    status.numLocallyComputedTokens / group.tokensPerChunk ≤ chunkIdx := by
  obtain ⟨groupBlocks, found, _, lower, _⟩ := loads
  apply le_trans _ lower
  unfold loadGroup at loaded
  simp only [found] at loaded
  obtain ⟨_, _, loaded⟩ := bind_eq_ok.mp loaded
  obtain ⟨_, behind, _⟩ := bind_eq_ok.mp loaded
  have wellFormed := config.well_formed group member
  rw [wellFormed.chunk_eq, ← Nat.div_div_eq_div_mul]
  apply Nat.div_le_div_right
  exact Nat.div_le_of_le_mul ((py_assert_eq_ok.mp behind).trans_eq (Nat.mul_comm _ _))

/-- The keys passed to `prepare_load` are those of the loaded chunks. -/
theorem plan_keys_chunks (complete : status.partialTailBoundary = none) {plan : LoadPlan}
    (planned : planLoads config status numCachedTokens blocks
      (LoadPlan.start config.numKvCacheGroups) config.kvGroupConfigs = .ok plan) :
    (∀ key, key ∈ plan.keysToLoad ↔ ∃ group ∈ config.kvGroupConfigs, ∃ chunkIdx,
      LoadsChunk config numCachedTokens blocks group chunkIdx ∧
        (status.groupStates group.groupIdx).offloadKeys[chunkIdx]? = some key) ∧
    ∀ group ∈ config.kvGroupConfigs, ∀ chunkIdx,
      LoadsChunk config numCachedTokens blocks group chunkIdx →
        status.numLocallyComputedTokens / group.tokensPerChunk ≤ chunkIdx := by
  obtain ⟨loads, covered, each, reached⟩ := plan_loads_spec _ planned
  rw [add_loads] at reached
  subst reached
  have loadOf : ∀ group ∈ config.kvGroupConfigs, ∃ load, (group, load) ∈ loads := by
    intro group member
    rw [← covered] at member
    obtain ⟨⟨_, load⟩, entry, rfl⟩ := List.mem_map.mp member
    exact ⟨load, entry⟩
  have grouped : ∀ entry ∈ loads, entry.1 ∈ config.kvGroupConfigs := by
    intro entry member
    rw [← covered]
    exact List.mem_map_of_mem member
  constructor
  · intro key
    simp only [LoadPlan.start, List.nil_append, byIndex, List.flatMap_map, List.mem_flatMap]
    constructor
    · rintro ⟨entry, member, inKeys⟩
      have chunk := (load_keys_chunks (grouped entry member) complete (each entry member) key).mp
        inKeys
      exact ⟨entry.1, grouped entry member, chunk⟩
    · rintro ⟨group, member, chunk⟩
      obtain ⟨load, entry⟩ := loadOf group member
      exact ⟨(group, load), entry,
        (load_keys_chunks member complete (each _ entry) key).mpr chunk⟩
  · intro group member chunkIdx
    obtain ⟨load, entry⟩ := loadOf group member
    exact load_starts_behind member (each _ entry)

end Chunks

section Attention

/-- Every offloaded group has full attention or a sliding window. -/
def AttentionOnly (spec : OffloadingSpec) : Prop :=
  ∀ group ∈ spec.groups, spec.kvSpec group = .fullAttention ∨
    ∃ slidingWindow positive, spec.kvSpec group = .slidingWindow slidingWindow positive

theorem attention_supports_no_tail {spec : OffloadingSpec} (attention : AttentionOnly spec) :
    (SchedulerOffloadConfig.fromSpec spec).supportsPartialTail = false := by
  have noCow : ∀ group ∈ spec.groups, (spec.groupConfig group).requiresCowSource = false := by
    intro group member
    rcases attention group member with full | ⟨slidingWindow, positive, window⟩
    · simp only [OffloadingSpec.groupConfig, full]
    · simp only [OffloadingSpec.groupConfig, window]
  have noSource : ((spec.groups.map spec.groupConfig).any fun config =>
      config.requiresCowSource && decide (spec.tokensPerHash < config.tokensPerBlock)) =
        false := by
    rw [List.any_eq_false]
    intro config member
    obtain ⟨group, groupMember, rfl⟩ := List.mem_map.mp member
    simp [noCow group groupMember]
  show spec.supportsPartialTail = false
  simp only [OffloadingSpec.supportsPartialTail, noSource, Bool.and_false, Bool.false_and]

variable [OffloadingManager M]

/-- Without partial tails the answer is the one for complete chunks. -/
theorem lookup_without_tail {config : SchedulerOffloadConfig} {mirrorLocal : Bool}
    {status : RequestOffloadState} {mambaAlignSize : Option Nat}
    {chunksBeingLoaded : Option (Finset OffloadKey)} {manager last : M} {hit : Nat}
    {tail : Option Nat} (noTail : config.supportsPartialTail = false)
    (looked : lookup config mirrorLocal status mambaAlignSize chunksBeingLoaded manager =
      .ok ((some hit, tail), last)) :
    tail = none ∧ lookupCompleteChunks config mirrorLocal status mambaAlignSize chunksBeingLoaded
      manager = .ok (some hit, last) := by
  obtain ⟨⟨completeHit, middle⟩, complete, looked⟩ := bind_eq_ok.mp looked
  cases completeHit with
  | none => cases looked
  | some completeHit =>
      simp only [noTail, if_true] at looked
      cases looked
      exact ⟨rfl, complete⟩

variable {spec : OffloadingSpec} {scheduler after : OffloadingConnectorScheduler (Noted M)}
  {reqId : ReqId} {numComputedTokens hit : Nat}

/-- A call with tokens to load has confirmed every chunk that it counts. -/
theorem counted_known {Valid : M → Prop} {Known : M → OffloadKey → Prop}
    (facts : LookupFacts Valid Known) (attention : AttentionOnly spec)
    (configured : scheduler.config = .fromSpec spec) (valid : Valid scheduler.manager.inner)
    (called : scheduler.getNumNewMatchedTokens reqId numComputedTokens =
      .ok ((some hit, true), after)) :
    after.config = scheduler.config ∧ Valid after.manager.inner ∧ hit ≠ 0 ∧
      ∀ status, after.reqStatus.get? reqId = some status →
        status.partialTailBoundary = none ∧ status.transferJobs = [] ∧
        ∀ group ∈ after.config.kvGroupConfigs, ∀ chunkIdx,
          Counted group status.numLocallyComputedTokens (status.numLocallyComputedTokens + hit)
            chunkIdx → ∀ key,
          (status.groupStates group.groupIdx).offloadKeys[chunkIdx]? = some key →
            Known after.manager.inner key ∧
              AnsweredHit scheduler.manager.answers.length after.manager key := by
  have tracked : ∃ status, scheduler.reqStatus.get? reqId = some status := by
    obtain ⟨status, found, _⟩ := bind_eq_ok.mp called
    exact ⟨status, py_item_eq_ok.mp found⟩
  obtain ⟨earlier, tracked⟩ := tracked
  obtain ⟨positive, tail, last, looked, keeps, config, matched, found, left⟩ :=
    matched_looked tracked called
  have noTail : scheduler.config.supportsPartialTail = false := by
    rw [configured]
    exact attention_supports_no_tail attention
  obtain ⟨rfl, complete⟩ := lookup_without_tail noTail looked
  have noted := noted_facts facts scheduler.manager.answers.length
  obtain ⟨lastValid, covered⟩ :=
    lookup_complete_chunks_covers noted ⟨valid, le_rfl⟩ positive complete
  have afterValid := keeps (fun manager => Valid manager.inner ∧
    scheduler.manager.answers.length ≤ manager.answers.length)
      (fun _ _ => noted.touch_valid) lastValid
  refine ⟨config, afterValid.1, positive.ne', fun status foundStatus => ?_⟩
  cases found.symm.trans foundStatus
  have idle := left.jobs.trans (matched_idle tracked called)
  refine ⟨left.tail, idle, fun group member chunkIdx counted key isKey => ?_⟩
  rw [config] at member
  rw [left.computed] at counted
  rw [left.keys] at isKey
  have known := (covered group member).known chunkIdx counted key isKey
  exact (keeps (fun manager => (Valid manager.inner ∧
      scheduler.manager.answers.length ≤ manager.answers.length) ∧
        Known manager.inner key ∧ AnsweredHit scheduler.manager.answers.length manager key)
    (fun _ _ both => ⟨noted.touch_valid both.1, noted.touch_kept both.1 both.2⟩)
    ⟨lastValid, known⟩).2

/-- A window group loads only chunks that the lookup counts. -/
theorem window_loads_counted {config : SchedulerOffloadConfig} {status : RequestOffloadState}
    {boundary : Nat} {blocks : List (List KVCacheBlock)}
    (inWindow : PendingInWindow config boundary blocks) {group : GroupOffloadConfig}
    (member : group ∈ config.kvGroupConfigs) {chunkIdx : Nat}
    (behind : status.numLocallyComputedTokens / group.tokensPerChunk ≤ chunkIdx)
    (loads : LoadsChunk config boundary blocks group chunkIdx) :
    Counted group status.numLocallyComputedTokens boundary chunkIdx := by
  refine ⟨behind, loads.choose_spec.2.2.2, fun window isWindow => ?_⟩
  obtain ⟨groupBlocks, listed, positive, lower, _⟩ := loads
  exact (inWindow group member window isWindow groupBlocks listed positive).trans
    (Nat.add_le_add_right lower window)

/-- A promised load goes through: over allocated blocks, with no first pending block before
its window, the keys passed to `prepare_load` are those of the loaded chunks, the call that
promised the tokens had each answered `HIT`, and with a manager that serves its hits
`update_state_after_alloc` returns. -/
theorem promised_load_enters (attention : AttentionOnly spec)
    (configured : scheduler.config = .fromSpec spec)
    (called : scheduler.getNumNewMatchedTokens reqId numComputedTokens =
      .ok ((some hit, true), after))
    {status : RequestOffloadState} (found : after.reqStatus.get? reqId = some status)
    {boundary : Nat} (isBoundary : boundary = status.numLocallyComputedTokens + hit)
    {blocks : List (List KVCacheBlock)}
    (allocated : AllAllocated after.config status boundary blocks)
    (inWindow : PendingInWindow after.config boundary blocks) :
    ∃ plan, planLoads after.config status boundary blocks
        (LoadPlan.start after.config.numKvCacheGroups) after.config.kvGroupConfigs = .ok plan ∧
      (∀ key, key ∈ plan.keysToLoad ↔ ∃ group ∈ after.config.kvGroupConfigs, ∃ chunkIdx,
        LoadsChunk after.config boundary blocks group chunkIdx ∧
          (status.groupStates group.groupIdx).offloadKeys[chunkIdx]? = some key) ∧
      (∀ key ∈ plan.keysToLoad,
        AnsweredHit scheduler.manager.answers.length after.manager key) ∧
      ∀ (Valid : M → Prop) (Known : M → OffloadKey → Prop), HitsServed Valid Known →
        Valid scheduler.manager.inner → ∃ blockIds manager entered,
          OffloadingManager.prepareLoad after.manager plan.keysToLoad = .ok (blockIds, manager) ∧
          updateStateAfterAlloc after reqId blocks hit = .ok entered := by
  obtain ⟨_, _, external, matched⟩ :=
    counted_known no_facts attention configured trivial called
  obtain ⟨complete, idle, known⟩ := matched status found
  obtain ⟨plan, planned⟩ := plan_loads_ok after.config.kvGroupConfigs
    (LoadPlan.start after.config.numKvCacheGroups) (fun _ member => member) (by omega) allocated
  obtain ⟨keys, behind⟩ := plan_keys_chunks complete planned
  rw [← isBoundary] at known
  refine ⟨plan, planned, keys, ?_, ?_⟩
  · intro key inKeys
    obtain ⟨group, member, chunkIdx, loads, isKey⟩ := (keys key).mp inKeys
    have counted := window_loads_counted inWindow member (behind group member chunkIdx loads) loads
    exact (known group member chunkIdx counted key isKey).2
  · intro Valid Known served valid
    obtain ⟨_, afterValid, _, matched⟩ :=
      counted_known served.toLookupFacts attention configured valid called
    obtain ⟨_, _, servedKnown⟩ := matched status found
    rw [← isBoundary] at servedKnown
    have serves : ∀ key ∈ plan.keysToLoad, Known after.manager.inner key := by
      intro key inKeys
      obtain ⟨group, member, chunkIdx, loads, isKey⟩ := (keys key).mp inKeys
      have counted :=
        window_loads_counted inWindow member (behind group member chunkIdx loads) loads
      exact (servedKnown group member chunkIdx counted key isKey).1
    obtain ⟨⟨blockIds, inner⟩, accepted⟩ := served.serves afterValid serves
    have prepared : OffloadingManager.prepareLoad after.manager plan.keysToLoad =
        .ok (blockIds, after.manager.told (.prepareLoad plan.keysToLoad blockIds) inner) :=
      congrArg (Except.map fun result =>
        (result.1, after.manager.told (.prepareLoad plan.keysToLoad result.1) result.2)) accepted
    obtain ⟨gpuSpec, made⟩ := planned_spec_made planned
    subst isBoundary
    obtain ⟨entered, enters, _⟩ := planned_load_enters found external
      (by simp [complete]) idle planned prepared made
    exact ⟨blockIds, _, entered, prepared, enters⟩

end Attention

section Managers

variable {P : Type} [CachePolicy P] [LawfulCachePolicy P]

theorem cpu_hits_served : HitsServed (PoolInv : CPUOffloadingManager P → Prop)
    fun manager key => Ready manager.policy key where
  hit {manager after key _} _ looked := by
    obtain ⟨same, answered⟩ := lookup_spec looked
    have ready := (lookup_result_hit_iff manager key).mp answered.symm
    rw [same.policy]
    exact ready
  kept {manager after key other _ _} _ looked _ ready := by
    rw [(lookup_spec looked).1.policy]
    exact ready
  valid pool looked := same_pool_inv (lookup_spec looked).1 pool
  touch_kept {manager keys other} pool ready := by
    have same : CachePolicy.get (manager.touch keys).policy other =
        CachePolicy.get manager.policy other :=
      LawfulCachePolicy.get_touch pool.policy keys other
    show Ready (manager.touch keys).policy other
    rw [Ready, same]
    exact ready
  touch_valid {manager keys} pool := (touch_ok pool keys).1
  serves {manager keys} pool known := by
    obtain ⟨blockIds, after, prepared, _⟩ := prepare_load_ok keys pool known
    exact ⟨_, prepared⟩

/-- Ending transfers keeps the pool in order. -/
theorem settling_pool {before after : CPUOffloadingManager P} (pool : PoolInv before)
    (calls : Calls Settling before after) : PoolInv after := by
  induction calls with
  | refl => exact pool
  | tail _ step ih =>
      obtain ⟨event, settling, call⟩ := step
      cases call with
      | written call =>
          obtain ⟨written, ok, writtenPool, _⟩ := complete_store_ok ih _ _
          cases call.symm.trans ok
          exact writtenPool
      | unpinned call => exact (TieringSlots.complete_load_phases _ ih call).1
      | _ => exact settling.elim

theorem tiering_lookup_pool {manager after : TieringOffloadingManager P} {key : OffloadKey}
    {reqContext : ReqContext} {result : LookupResult} (pool : PoolInv manager.primaryTier)
    (called : manager.lookup key reqContext = .ok (result, after)) :
    PoolInv after.primaryTier := by
  obtain ⟨polled, primary, looked⟩ := lookup_looked called
  have polledPool := settling_pool pool (maybe_process_reaches looked.polls)
  obtain ⟨answer, primaryOk, _⟩ := looked.looks
  have primaryPool := same_pool_inv (lookup_spec primaryOk).1 polledPool
  rcases looked.stores with ⟨same, _⟩ | ⟨prepared, _⟩
  · rw [same]
    exact primaryPool
  · obtain ⟨_, stored, ok, storedPool, _⟩ :=
      prepare_store_ok primaryPool [key] false (List.nodup_singleton key)
    cases prepared.symm.trans ok
    exact storedPool

theorem tiering_hits_served [TrackedPolicy P] :
    HitsServed (fun manager : TieringOffloadingManager P =>
        TrackedPolicy.Tracked manager.primaryTier.policy ∧ PoolInv manager.primaryTier)
      fun manager key => Ready manager.primaryTier.policy key where
  hit valid looked := tiering_lookup_facts.hit valid.1 looked
  kept valid looked settled ready := tiering_lookup_facts.kept valid.1 looked settled ready
  valid valid looked := ⟨tiering_lookup_facts.valid valid.1 looked,
    tiering_lookup_pool valid.2 looked⟩
  touch_kept valid ready := tiering_lookup_facts.touch_kept valid.1 ready
  touch_valid {manager keys} valid := by
    refine ⟨tiering_lookup_facts.touch_valid valid.1, ?_⟩
    show PoolInv (manager.touch keys).primaryTier
    rw [TieringOffloadingManager.touch, call_all_primary]
    exact (touch_ok valid.2 keys).1
  serves {manager keys} valid known := by
    obtain ⟨blockIds, primary, prepared, _⟩ := prepare_load_ok keys valid.2 known
    refine ⟨(blockIds, manager.withPrimary primary), ?_⟩
    show manager.prepareLoad keys = _
    rw [TieringOffloadingManager.prepareLoad, prepared]
    rfl

end Managers

section Stock

/-- In a window group the stock manager keeps the blocks that reach into the last
`slidingWindow - 1` tokens before the boundary and pads the others. -/
def StockPadded (spec : OffloadingSpec) (boundary : Nat) (blocks : List (List KVCacheBlock)) :
    Prop :=
  ∀ group ∈ spec.groups, ∀ slidingWindow positive,
    spec.kvSpec group = .slidingWindow slidingWindow positive →
    ∀ groupBlocks, blocks[group.groupIdx]? = some groupBlocks →
      ∀ index block, groupBlocks[index]? = some block →
        (block.isNull = false ↔
          boundary + 1 < (index + 1) * group.tokensPerBlock + slidingWindow)

theorem first_pending_block {numCachedTokens : Nat} {group : GroupOffloadConfig}
    {groupBlocks : List KVCacheBlock}
    (pending : firstPending numCachedTokens group groupBlocks <
      (groupBlocks.take (cdiv numCachedTokens group.tokensPerBlock)).length) :
    ∃ block, groupBlocks[firstPending numCachedTokens group groupBlocks]? = some block ∧
      block.isPending = true := by
  have isPending := @List.findIdx_getElem _ KVCacheBlock.isPending _ pending
  generalize block_eq : (groupBlocks.take (cdiv numCachedTokens group.tokensPerBlock))[
    (groupBlocks.take (cdiv numCachedTokens group.tokensPerBlock)).findIdx
      KVCacheBlock.isPending] = block at isPending
  have found := List.getElem?_eq_some_iff.mpr ⟨pending, block_eq⟩
  have inside := pending.trans_le (List.length_take_le _ _)
  exact ⟨block, (List.getElem?_take_of_lt inside).symm.trans found, isPending⟩

/-- At a boundary on a chunk border of its groups a padded request loads no chunk before
the window. -/
theorem aligned_pending_in_window {spec : OffloadingSpec} (attention : AttentionOnly spec)
    {boundary : Nat} {blocks : List (List KVCacheBlock)}
    (stock : StockPadded spec boundary blocks)
    (enough : ∀ group ∈ spec.groups, ∀ groupBlocks, blocks[group.groupIdx]? = some groupBlocks →
      cdiv boundary group.tokensPerBlock ≤ groupBlocks.length)
    (aligned : ∀ group ∈ spec.groups, spec.tokensPerChunk group ∣ boundary) :
    PendingInWindow (.fromSpec spec) boundary blocks := by
  intro config member window isWindow groupBlocks found pending
  obtain ⟨group, groupMember, rfl⟩ := List.mem_map.mp member
  change spec.windowOf group = some window at isWindow
  rcases attention group groupMember with full | ⟨slidingWindow, positive, isSliding⟩
  · rw [OffloadingSpec.windowOf, full] at isWindow
    cases isWindow
  · rw [OffloadingSpec.windowOf, isSliding] at isWindow
    obtain rfl := Option.some.inj isWindow
    have chunk_pos := spec.tokens_per_chunk_pos groupMember
    have listed := enough group groupMember groupBlocks found
    generalize first_eq : firstPending boundary (spec.groupConfig group) groupBlocks = first
      at pending ⊢
    obtain ⟨block, blockAt, isPending⟩ := @first_pending_block boundary (spec.groupConfig group)
      groupBlocks (by
        rw [first_eq, List.length_take]
        exact lt_min pending (pending.trans_le listed))
    rw [first_eq] at blockAt
    simp only [KVCacheBlock.isPending, Bool.and_eq_true, Bool.not_eq_true'] at isPending
    have reaches := (stock group groupMember slidingWindow positive isSliding groupBlocks found
      first block blockAt).mp isPending.1
    -- the block ends in its chunk, and the window ends in its last chunk
    have inChunk : (first + 1) * group.tokensPerBlock ≤
        (first / spec.blocksPerChunk + 1) * spec.tokensPerChunk group := by
      rw [OffloadingSpec.tokensPerChunk, Nat.mul_comm group.tokensPerBlock, ← Nat.mul_assoc]
      apply Nat.mul_le_mul_right
      rw [Nat.mul_comm]
      exact Nat.lt_mul_div_succ first spec.blocks_pos
    have inWindow := le_mul_cdiv slidingWindow chunk_pos
    show cdiv boundary (spec.tokensPerChunk group) ≤ first / spec.blocksPerChunk +
      cdiv slidingWindow (spec.tokensPerChunk group)
    obtain ⟨chunks, isChunks⟩ := aligned group groupMember
    rw [cdiv_le_iff chunk_pos, isChunks]
    apply Nat.mul_le_mul_left
    have below : spec.tokensPerChunk group * chunks < spec.tokensPerChunk group *
        (first / spec.blocksPerChunk + 1 + cdiv slidingWindow (spec.tokensPerChunk group)) := by
      rw [← isChunks, Nat.mul_add, Nat.mul_comm _ (first / spec.blocksPerChunk + 1)]
      omega
    have := Nat.lt_of_mul_lt_mul_left below
    omega

end Stock

section Sample

def slopeGroups : List OffloadingGroupConfig := [⟨2, 0⟩, ⟨3, 1⟩]

/-- A window group beside a full group with longer chunks. -/
def slopeSpec : OffloadingSpec where
  groups := slopeGroups
  kvCacheGroups := [⟨.slidingWindow 2 Nat.two_pos, false⟩, ⟨.fullAttention, false⟩]
  blocksPerChunk := 1
  tokensPerHash := 1
  worldSize := 1
  decodeContextParallelSize := 1
  offloadPromptOnly := false
  useEagle := false
  ordered := by decide
  bounded := by decide
  blocks_pos := Nat.one_pos
  hash_pos := Nat.one_pos
  hash_fits := by decide

abbrev SlopeManager := Noted (CPUOffloadingManager LruPolicy.LRUCachePolicy)

/-- The chunks of both groups are ready. -/
def slopeKeys : List OffloadKey := [⟨[1], 0⟩, ⟨[3], 0⟩, ⟨[2], 1⟩]

def slopeManager : CPUOffloadingManager LruPolicy.LRUCachePolicy :=
  let manager := CPUOffloadingManager.new { numBlocks := 4 } (LruPolicy.LRUCachePolicy.new 4)
  ((manager.prepareStore slopeKeys true).bind fun stored =>
    stored.2.completeStore slopeKeys true).toOption.getD manager

def slopeScheduler : OffloadingConnectorScheduler SlopeManager :=
  let req : Request := ⟨0, 5, 5, 0, [[0], [1], [2], [3]], .unfinished, false, .all, none⟩
  (OffloadingConnectorScheduler.new (.fromSpec slopeSpec) { mirrorLocal := false } none
    ⟨slopeManager, {}⟩ ⟨fun _ => 0, 0⟩).setStatus 0
      (RequestOffloadState.new req (createReqContext req) .blockLevel)

/-- The first block of the window group is padded. -/
def slopeBlocks : List (List KVCacheBlock) :=
  [[⟨0, true, false⟩, ⟨4, false, false⟩], [⟨5, false, false⟩]]

theorem slope_manager_pool : PoolInv slopeManager := by
  have policyInv : LawfulCachePolicy.Inv (LruPolicy.LRUCachePolicy.new 4) := by
    intro key
    simp [LruPolicy.LRUCachePolicy.new]
  obtain ⟨start, _⟩ := new_spec { numBlocks := 4 } (LruPolicy.LRUCachePolicy.new 4) policyInv
    fun _ => rfl
  obtain ⟨_, _, stored, storedInv, _⟩ := prepare_store_ok start slopeKeys true (by decide)
  obtain ⟨_, completed, completedInv, _⟩ := complete_store_ok storedInv slopeKeys true
  unfold slopeManager
  simp only [stored, Except.bind, completed, Except.toOption, Option.getD_some]
  exact completedInv

theorem slope_pending_in_window : PendingInWindow (.fromSpec slopeSpec) 3 slopeBlocks := by
  intro config member window isWindow groupBlocks found _
  obtain ⟨group, groupMember, rfl⟩ := List.mem_map.mp member
  change group ∈ slopeGroups at groupMember
  simp only [slopeGroups, List.mem_cons, List.not_mem_nil, or_false] at groupMember
  rcases groupMember with rfl | rfl
  · cases isWindow
    cases found
    decide
  · cases isWindow

theorem slope_attention : AttentionOnly slopeSpec := by
  intro group member
  change group ∈ slopeGroups at member
  simp only [slopeGroups, List.mem_cons, List.not_mem_nil, or_false] at member
  rcases member with rfl | rfl
  · exact .inr ⟨2, Nat.two_pos, rfl⟩
  · exact .inl rfl

/-- The call promises three tokens, for which the blocks are allocated. -/
def slopeCall : Except PyError ((Option Nat × Bool) × Nat × Bool × List OffloadKey) := do
  let (matched, after) ← slopeScheduler.getNumNewMatchedTokens 0 0
  let status ← after.statusOf 0
  let plan ← planLoads after.config status 3 slopeBlocks
    (LoadPlan.start after.config.numKvCacheGroups) after.config.kvGroupConfigs
  .ok (matched, status.numLocallyComputedTokens,
    decide (AllAllocated after.config status 3 slopeBlocks), plan.keysToLoad)

/-- The last chunk of the window and the chunk of the full group are loaded. -/
theorem slope_load_enters :
    ∃ after entered : OffloadingConnectorScheduler SlopeManager,
      slopeScheduler.getNumNewMatchedTokens 0 0 = .ok ((some 3, true), after) ∧
      (∀ key ∈ [⟨[3], 0⟩, ⟨[2], 1⟩], AnsweredHit 0 after.manager key) ∧
      updateStateAfterAlloc after 0 slopeBlocks 3 = .ok entered := by
  have ran : slopeCall = .ok ((some 3, true), 0, true, [⟨[3], 0⟩, ⟨[2], 1⟩]) := by
    decide +kernel
  obtain ⟨⟨matched, after⟩, called, rest⟩ := bind_eq_ok.mp ran
  obtain ⟨status, found, rest⟩ := bind_eq_ok.mp rest
  obtain ⟨plan, planned, seen⟩ := bind_eq_ok.mp rest
  simp only [Except.ok.injEq, Prod.mk.injEq, decide_eq_true_eq] at seen
  obtain ⟨rfl, computed, allocated, keys⟩ := seen
  have config := (counted_known no_facts slope_attention rfl trivial called).1
  obtain ⟨_, same, _, answered, enters⟩ := promised_load_enters slope_attention rfl called
    (ConnectorMoves.status_of_ok found) (by rw [computed]) allocated
    (by rw [config]; exact slope_pending_in_window)
  cases planned.symm.trans same
  obtain ⟨_, _, entered, _, returns⟩ := enters _ _ cpu_hits_served slope_manager_pool
  exact ⟨after, entered, called, keys ▸ answered, returns⟩

end Sample

end KvOffload.LoadAgreement
