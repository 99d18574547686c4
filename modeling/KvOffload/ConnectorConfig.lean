import KvOffload.Base

/-!
# Offloading connector configuration

The scheduler-side configuration of the connector: one entry for each KV cache
group that is offloaded, with its chunk geometry and its attention window. What
`from_spec` guarantees of the configuration it builds is carried as fields.
-/

namespace KvOffload.ConnectorConfig

open KvOffload KvOffload.Base

set_option autoImplicit false

inductive MambaCacheMode where
  | none
  | align
  | all
  deriving DecidableEq, Repr

/-- The positivity of a window is the assertion `get_sliding_window_size_in_chunks`
makes of it. -/
inductive KVCacheSpec where
  | fullAttention
  | slidingWindow (slidingWindow : Nat) (positive : 0 < slidingWindow)
  | chunkedLocalAttention (attentionChunkSize : Nat) (positive : 0 < attentionChunkSize)
  | mamba (mambaCacheMode : MambaCacheMode)

structure KVCacheGroup where
  kvCacheSpec : KVCacheSpec
  isEagleGroup : Bool

structure OffloadingGroupConfig where
  tokensPerBlock : Nat
  groupIdx : Nat

/-- The offloaded groups keep their index in the list of all groups; each chunk
spans at least one block hash. -/
structure OffloadingSpec where
  groups : List OffloadingGroupConfig
  kvCacheGroups : List KVCacheGroup
  blocksPerChunk : Nat
  tokensPerHash : Nat
  worldSize : Nat
  decodeContextParallelSize : Nat
  offloadPromptOnly : Bool
  useEagle : Bool
  ordered : groups.Pairwise fun first second => first.groupIdx < second.groupIdx
  bounded : ∀ group ∈ groups, group.groupIdx < kvCacheGroups.length
  blocks_pos : 0 < blocksPerChunk
  hash_pos : 0 < tokensPerHash
  hash_fits : ∀ group ∈ groups, tokensPerHash ≤ group.tokensPerBlock

structure GroupOffloadConfig where
  groupIdx : Nat
  tokensPerBlock : Nat
  tokensPerChunk : Nat
  hashesPerChunk : Nat
  slidingWindowSizeInChunks : Option Nat
  requiresCowSource : Bool := false
  alignmentChunkCount : Option Nat := none
  isEagleGroup : Bool := false
  deriving DecidableEq, Repr

def getSlidingWindowSizeInChunks (kvCacheSpec : KVCacheSpec) (tokensPerChunk : Nat) :
    Option Nat :=
  match kvCacheSpec with
  | .slidingWindow slidingWindow _ => some (cdiv slidingWindow tokensPerChunk)
  | .chunkedLocalAttention attentionChunkSize _ => some (cdiv attentionChunkSize tokensPerChunk)
  | .mamba _ => some 1
  | .fullAttention => none

/-- Whether a chunk of a window group can take part in a hit. A group with
alignment segments has a window, which the source asserts. -/
def isStoreReachableSwaChunk (absoluteChunkIndex storableChunkCount : Nat)
    (alignmentChunkCount slidingWindowChunks : Option Nat) (isEagleGroup : Bool) : Bool :=
  match alignmentChunkCount, slidingWindowChunks with
  | none, _ => true
  | some _, none => false
  | some alignmentChunkCount, some slidingWindowChunks =>
      let positionInSegment := absoluteChunkIndex % alignmentChunkCount
      let segmentStart := absoluteChunkIndex - positionInSegment
      let actualSegmentLength := min alignmentChunkCount (storableChunkCount - segmentStart)
      let reachableTail := slidingWindowChunks + isEagleGroup.toNat
      actualSegmentLength ≤ positionInSegment + reachableTail

/-- The geometry of one group inside a configuration. -/
structure GroupOffloadConfig.WellFormed (config : GroupOffloadConfig) (blocksPerChunk : Nat) :
    Prop where
  block_pos : 0 < config.tokensPerBlock
  chunk_eq : config.tokensPerChunk = config.tokensPerBlock * blocksPerChunk
  hashes_pos : 0 < config.hashesPerChunk
  window_pos : ∀ window, config.slidingWindowSizeInChunks = some window → 0 < window
  segment_window : config.alignmentChunkCount.isSome → config.slidingWindowSizeInChunks.isSome

structure SchedulerOffloadConfig where
  kvGroupConfigs : List GroupOffloadConfig
  numKvCacheGroups : Nat
  blocksPerChunk : Nat
  tokensPerHash : Nat
  numWorkers : Nat
  offloadPromptOnly : Bool
  supportsPartialTail : Bool
  ordered : kvGroupConfigs.Pairwise fun first second => first.groupIdx < second.groupIdx
  bounded : ∀ config ∈ kvGroupConfigs, config.groupIdx < numKvCacheGroups
  blocks_pos : 0 < blocksPerChunk
  hash_pos : 0 < tokensPerHash
  well_formed : ∀ config ∈ kvGroupConfigs, config.WellFormed blocksPerChunk

namespace OffloadingSpec

variable (spec : OffloadingSpec)

def kvSpec (group : OffloadingGroupConfig) : KVCacheSpec :=
  (spec.kvCacheGroups[group.groupIdx]?.map KVCacheGroup.kvCacheSpec).getD .fullAttention

def tokensPerChunk (group : OffloadingGroupConfig) : Nat :=
  group.tokensPerBlock * spec.blocksPerChunk

def windowOf (group : OffloadingGroupConfig) : Option Nat :=
  getSlidingWindowSizeInChunks (spec.kvSpec group) (spec.tokensPerChunk group)

/-- The chunk size shared by all full-attention groups, if there is one. -/
def alignmentTokens : Option Nat :=
  match ((spec.groups.filter fun group => spec.windowOf group = none).map
      spec.tokensPerChunk).dedup with
  | [alignment] => some alignment
  | _ => none

def alignmentChunkCount (tokensPerChunk : Nat) (slidingWindowSizeInChunks : Option Nat) :
    Option Nat :=
  match spec.alignmentTokens, slidingWindowSizeInChunks with
  | some alignment, some window =>
      if alignment ≤ tokensPerChunk then none
      else if alignment / tokensPerChunk ≤ window then none
      else some (alignment / tokensPerChunk)
  | _, _ => none

/-- With EAGLE in use and no group marked, every group is an EAGLE group. -/
def isEagle (group : OffloadingGroupConfig) : Bool :=
  ((spec.kvCacheGroups[group.groupIdx]?.map KVCacheGroup.isEagleGroup).getD false) ||
    (spec.useEagle && spec.kvCacheGroups.all fun other => !other.isEagleGroup)

def groupConfig (group : OffloadingGroupConfig) : GroupOffloadConfig where
  groupIdx := group.groupIdx
  tokensPerBlock := group.tokensPerBlock
  tokensPerChunk := spec.tokensPerChunk group
  hashesPerChunk := spec.tokensPerChunk group / spec.tokensPerHash
  slidingWindowSizeInChunks := spec.windowOf group
  requiresCowSource := match spec.kvSpec group with
    | .mamba .align => true
    | _ => false
  alignmentChunkCount := spec.alignmentChunkCount (spec.tokensPerChunk group)
    (spec.windowOf group)
  isEagleGroup := spec.isEagle group

def supportsPartialTail : Bool :=
  let configs := spec.groups.map spec.groupConfig
  decide (spec.blocksPerChunk = 1) &&
    decide ((configs.map GroupOffloadConfig.tokensPerBlock).dedup.length = 1) &&
    decide (configs.length = spec.kvCacheGroups.length) &&
    (configs.any fun config =>
      config.requiresCowSource && decide (spec.tokensPerHash < config.tokensPerBlock)) &&
    (configs.all fun config =>
      config.slidingWindowSizeInChunks.isNone || config.requiresCowSource) &&
    (configs.all fun config => !config.isEagleGroup) &&
    decide (spec.decodeContextParallelSize = 1)

theorem tokens_per_chunk_pos {group : OffloadingGroupConfig} (member : group ∈ spec.groups) :
    0 < spec.tokensPerChunk group :=
  Nat.mul_pos (spec.hash_pos.trans_le (spec.hash_fits group member)) spec.blocks_pos

theorem cdiv_pos {dividend divisor : Nat} (dividend_pos : 0 < dividend)
    (divisor_pos : 0 < divisor) : 0 < cdiv dividend divisor :=
  (lt_cdiv_iff divisor_pos).mpr (by simpa using dividend_pos)

theorem group_config_well_formed {group : OffloadingGroupConfig}
    (member : group ∈ spec.groups) :
    (spec.groupConfig group).WellFormed spec.blocksPerChunk := by
  have fits := spec.hash_fits group member
  have chunk_pos := spec.tokens_per_chunk_pos member
  constructor
  · exact spec.hash_pos.trans_le fits
  · rfl
  · exact Nat.div_pos (fits.trans (Nat.le_mul_of_pos_right _ spec.blocks_pos)) spec.hash_pos
  · intro window isWindow
    change spec.windowOf group = some window at isWindow
    unfold windowOf getSlidingWindowSizeInChunks at isWindow
    split at isWindow <;> cases isWindow
    · exact cdiv_pos (by assumption) chunk_pos
    · exact cdiv_pos (by assumption) chunk_pos
    · exact Nat.one_pos
  · intro segments
    change (spec.alignmentChunkCount _ (spec.windowOf group)).isSome = true at segments
    change (spec.windowOf group).isSome = true
    unfold alignmentChunkCount at segments
    split at segments
    · rename_i window
      rw [window]
      rfl
    · simp at segments

/-- The single alignment size of the Mamba groups; the source asserts that they agree. -/
def resolveMambaAlignSize : Except PyError (Option Nat) :=
  spec.groups.foldlM
    (fun mambaAlignSize group =>
      match spec.kvSpec group with
      | .mamba .align | .mamba .all => do
          let tokensPerChunk := spec.tokensPerChunk group
          pyAssert (mambaAlignSize = none ∨ mambaAlignSize = some tokensPerChunk)
          .ok (some tokensPerChunk)
      | _ => .ok mambaAlignSize) none

end OffloadingSpec

def SchedulerOffloadConfig.fromSpec (spec : OffloadingSpec) : SchedulerOffloadConfig where
  kvGroupConfigs := spec.groups.map spec.groupConfig
  numKvCacheGroups := spec.kvCacheGroups.length
  blocksPerChunk := spec.blocksPerChunk
  tokensPerHash := spec.tokensPerHash
  numWorkers := spec.worldSize
  offloadPromptOnly := spec.offloadPromptOnly
  supportsPartialTail := spec.supportsPartialTail
  ordered := List.pairwise_map.mpr spec.ordered
  bounded := by
    intro config member
    obtain ⟨group, groupMember, rfl⟩ := List.mem_map.mp member
    exact spec.bounded group groupMember
  blocks_pos := spec.blocks_pos
  hash_pos := spec.hash_pos
  well_formed := by
    intro config member
    obtain ⟨group, groupMember, rfl⟩ := List.mem_map.mp member
    exact spec.group_config_well_formed groupMember

namespace SchedulerOffloadConfig

variable (config : SchedulerOffloadConfig)

def fullAttentionGroups : List GroupOffloadConfig :=
  config.kvGroupConfigs.filter fun group => group.slidingWindowSizeInChunks = none

/-- Window groups by decreasing window size; the sort is stable. -/
def slidingWindowGroups : List GroupOffloadConfig :=
  (config.kvGroupConfigs.filter fun group =>
    group.slidingWindowSizeInChunks.isSome).insertionSort fun first second =>
      second.slidingWindowSizeInChunks.getD 0 ≤ first.slidingWindowSizeInChunks.getD 0

def lookupGroups : List GroupOffloadConfig :=
  config.fullAttentionGroups ++ config.slidingWindowGroups

def partialTailBlockSize : Nat :=
  if config.supportsPartialTail then
    (config.kvGroupConfigs.head?.map GroupOffloadConfig.tokensPerBlock).getD 0
  else 0

def cowSourceGroups : List Nat :=
  (config.kvGroupConfigs.filter GroupOffloadConfig.requiresCowSource).map
    GroupOffloadConfig.groupIdx

theorem mem_sliding_window_groups {group : GroupOffloadConfig} :
    group ∈ config.slidingWindowGroups ↔
      group ∈ config.kvGroupConfigs ∧ group.slidingWindowSizeInChunks.isSome = true := by
  rw [slidingWindowGroups, List.mem_insertionSort, List.mem_filter]

theorem mem_full_attention_groups {group : GroupOffloadConfig} :
    group ∈ config.fullAttentionGroups ↔
      group ∈ config.kvGroupConfigs ∧ group.slidingWindowSizeInChunks = none := by
  rw [fullAttentionGroups, List.mem_filter, decide_eq_true_eq]

theorem mem_lookup_groups {group : GroupOffloadConfig} :
    group ∈ config.lookupGroups ↔ group ∈ config.kvGroupConfigs := by
  rw [lookupGroups, List.mem_append, mem_full_attention_groups, mem_sliding_window_groups]
  cases group.slidingWindowSizeInChunks <;> simp

end SchedulerOffloadConfig

/-- The smallest configuration with partial tails: a full-attention group and a Mamba group
with blocks of four tokens, hashed by two. -/
def tailSpec : OffloadingSpec where
  groups := [⟨4, 0⟩, ⟨4, 1⟩]
  kvCacheGroups := [⟨.fullAttention, false⟩, ⟨.mamba .align, false⟩]
  blocksPerChunk := 1
  tokensPerHash := 2
  worldSize := 1
  decodeContextParallelSize := 1
  offloadPromptOnly := false
  useEagle := false
  ordered := by decide
  bounded := by decide
  blocks_pos := Nat.one_pos
  hash_pos := Nat.two_pos
  hash_fits := by decide

end KvOffload.ConnectorConfig
