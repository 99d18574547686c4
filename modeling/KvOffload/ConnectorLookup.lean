import KvOffload.ConnectorRequests
import KvOffload.ManagerInterface

/-!
# Lookup of the offloading connector

The search for the boundary up to which a request can be loaded: the prefix scan
of a full-attention group, the window scan of a window group, the passes over the
groups until the boundary stands still, and the scan of the partial tail. The
manager's answers may change between lookups. Trace lines and the attribution of
recomputed blocks are left out.
-/

namespace KvOffload.ConnectorLookup

open KvOffload KvOffload.Base KvOffload.ConnectorConfig KvOffload.ConnectorRequests
open KvOffload.ManagerInterface

set_option autoImplicit false

variable {M : Type} [OffloadingLookup M]

/-- `none` when the backend deferred a lookup. -/
def maximalPrefixLookup (mirrorLocal : Bool) (reqContext : ReqContext) (manager : M)
    (hitCount : Nat) (deferLookup : Bool) :
    List OffloadKey → Except PyError (Option Nat × M)
  | [] => .ok (if deferLookup then none else some hitCount, manager)
  | key :: rest => do
      match ← OffloadingLookup.lookup manager key reqContext with
      | (.hit, manager) =>
          let manager := if mirrorLocal then OffloadingLookup.touch manager [key] else manager
          maximalPrefixLookup mirrorLocal reqContext manager (hitCount + 1) deferLookup rest
      | (.hitPending, manager) =>
          maximalPrefixLookup mirrorLocal reqContext manager (hitCount + 1) true rest
      | (.retry, manager) =>
          maximalPrefixLookup mirrorLocal reqContext manager hitCount true rest
      | (.miss, manager) => .ok (if deferLookup then none else some hitCount, manager)

/-- The keys come last first, so the index of a key is the number of keys after it. -/
def slidingWindowScan (slidingWindowSize : Nat) (reqContext : ReqContext) (manager : M)
    (consecutiveHits : Nat) (deferLookup : Bool) :
    List OffloadKey → Except PyError (Option Nat × M)
  | [] => .ok (if deferLookup then none else some consecutiveHits, manager)
  | key :: rest => do
      let (result, manager) ← OffloadingLookup.lookup manager key reqContext
      let consecutiveHits :=
        if result = .hit ∨ result = .hitPending then consecutiveHits + 1 else 0
      let deferLookup := deferLookup || decide (result = .hitPending ∨ result = .retry)
      if consecutiveHits = slidingWindowSize then
        .ok (if deferLookup then none else some (rest.length + slidingWindowSize), manager)
      else slidingWindowScan slidingWindowSize reqContext manager consecutiveHits deferLookup rest

/-- End index of the last run of `slidingWindowSize` hits, `0` on a miss. -/
def slidingWindowLookup (keys : List OffloadKey) (slidingWindowSize : Nat)
    (reqContext : ReqContext) (manager : M) : Except PyError (Option Nat × M) :=
  slidingWindowScan slidingWindowSize reqContext manager 0 false keys.reverse

/-- The variables of the search; the hit never exceeds the boundary it came from. -/
structure Convergence (numComputedTokens : Nat) where
  maxHitSizeTokens : Nat
  numHitTokens : Nat
  deferLookup : Bool
  eagleVerified : List Nat
  lookedUpSlidingWindow : Bool
  lookupGroups : List GroupOffloadConfig
  hit_le : numHitTokens ≤ maxHitSizeTokens - numComputedTokens

namespace Convergence

variable {numComputedTokens : Nat} (state : Convergence numComputedTokens)

def startPass : Convergence numComputedTokens :=
  { state with lookedUpSlidingWindow := false, lookupGroups := [] }

def eagleUnverified (group : GroupOffloadConfig) : Bool :=
  group.isEagleGroup && decide (group.groupIdx ∉ state.eagleVerified)

/-- The boundary after a group answered, not above the boundary it was asked about;
`none` when less than a chunk can be loaded. -/
def conclude (config : SchedulerOffloadConfig) (group : GroupOffloadConfig) (boundary : Nat)
    (deferLookup : Bool) (eagleVerified : List Nat) : Option (Convergence numComputedTokens) :=
  let newNumHitTokens := boundary - numComputedTokens
  if newNumHitTokens < group.tokensPerChunk then none
  else
    let tightened := decide (newNumHitTokens < state.numHitTokens)
    let again := tightened && state.lookedUpSlidingWindow && state.lookupGroups.isEmpty
    some
      { maxHitSizeTokens := boundary
        numHitTokens := newNumHitTokens
        deferLookup := deferLookup && !tightened
        eagleVerified := if tightened && !group.isEagleGroup then [] else eagleVerified
        lookedUpSlidingWindow :=
          state.lookedUpSlidingWindow || group.slidingWindowSizeInChunks.isSome
        lookupGroups :=
          if tightened && deferLookup then config.lookupGroups
          else if again then config.slidingWindowGroups
          else state.lookupGroups
        hit_le := le_rfl }

/-- What the number of hit chunks of a group means for the boundary. -/
def tighten (config : SchedulerOffloadConfig) (group : GroupOffloadConfig) (capped : Nat) :
    Option Nat → Option (Convergence numComputedTokens)
  | none => state.conclude config group capped true state.eagleVerified
  | some 0 => none
  | some (numHitChunks + 1) =>
      let unverified := state.eagleUnverified group
      let hits := if unverified then numHitChunks else numHitChunks + 1
      let startChunkIdx := numComputedTokens / group.tokensPerChunk
      state.conclude config group
        (min capped (group.tokensPerChunk * (startChunkIdx + hits))) state.deferLookup
        (if unverified then group.groupIdx :: state.eagleVerified else state.eagleVerified)

end Convergence

variable (config : SchedulerOffloadConfig) (mirrorLocal : Bool) (status : RequestOffloadState)

/-- The keys of a group that are looked up below the boundary `capped`. -/
def queriedKeys (offloadKeys : List OffloadKey) (group : GroupOffloadConfig)
    (numComputedTokens capped : Nat) (isEagleUnverified : Bool) : List OffloadKey :=
  let queryMax :=
    if isEagleUnverified && group.slidingWindowSizeInChunks.isSome then
      min (capped + group.tokensPerChunk) (offloadKeys.length * group.tokensPerChunk)
    else capped
  let numChunks := min (cdiv queryMax group.tokensPerChunk) offloadKeys.length
  (offloadKeys.take numChunks).drop (numComputedTokens / group.tokensPerChunk)

def queryGroup (group : GroupOffloadConfig) (keys : List OffloadKey) (isEagleUnverified : Bool)
    (manager : M) : Except PyError (Option Nat × M) :=
  match group.slidingWindowSizeInChunks with
  | none => maximalPrefixLookup mirrorLocal status.reqContext manager 0 false keys
  | some window =>
      slidingWindowLookup keys (if isEagleUnverified then window + 1 else window)
        status.reqContext manager

variable {numComputedTokens : Nat}

/-- One group of one pass; `none` stands for the early `return 0`. -/
def lookupGroup (state : Convergence numComputedTokens) (manager : M)
    (group : GroupOffloadConfig) :
    Except PyError (Option (Convergence numComputedTokens) × M) := do
  let offloadKeys := (status.groupStates group.groupIdx).offloadKeys
  pyAssert (status.req.numTokens / group.tokensPerChunk ≤ offloadKeys.length)
  let isEagleUnverified := state.eagleUnverified group
  let capped := min state.maxHitSizeTokens (offloadKeys.length * group.tokensPerChunk)
  if capped - numComputedTokens < group.tokensPerChunk then .ok (none, manager)
  else do
    let keys := queriedKeys offloadKeys group numComputedTokens capped isEagleUnverified
    let (numHitChunks, manager) ←
      queryGroup mirrorLocal status group keys isEagleUnverified manager
    .ok (state.tighten config group capped numHitChunks, manager)

def lookupPass (state : Convergence numComputedTokens) (manager : M) :
    List GroupOffloadConfig →
      Except PyError (Option (Convergence numComputedTokens) × M)
  | [] => .ok (some state, manager)
  | group :: rest => do
      match ← lookupGroup config mirrorLocal status state manager group with
      | (none, manager) => .ok (none, manager)
      | (some state, manager) => lookupPass state manager rest

section Termination

variable {config mirrorLocal status}

theorem conclude_eq_some {state after : Convergence numComputedTokens}
    {group : GroupOffloadConfig} {boundary : Nat} {deferLookup : Bool} {eagleVerified : List Nat}
    (concluded : state.conclude config group boundary deferLookup eagleVerified = some after) :
    group.tokensPerChunk ≤ boundary - numComputedTokens ∧ after.maxHitSizeTokens = boundary ∧
      after.numHitTokens = boundary - numComputedTokens ∧
      (after.lookupGroups = state.lookupGroups ∨
        boundary - numComputedTokens < state.numHitTokens) := by
  unfold Convergence.conclude at concluded
  simp only at concluded
  split at concluded
  · cases concluded
  · rename_i enough
    cases concluded
    refine ⟨Nat.le_of_not_lt enough, rfl, rfl, ?_⟩
    by_cases tightened : boundary - numComputedTokens < state.numHitTokens
    · exact .inr tightened
    · exact .inl (by simp [tightened])

/-- A group's answer never raises the boundary. -/
theorem tighten_eq_some {state after : Convergence numComputedTokens}
    {group : GroupOffloadConfig} {capped : Nat} {numHitChunks : Option Nat}
    (tightened : state.tighten config group capped numHitChunks = some after) :
    ∃ boundary ≤ capped, group.tokensPerChunk ≤ boundary - numComputedTokens ∧
      after.maxHitSizeTokens = boundary ∧ after.numHitTokens = boundary - numComputedTokens ∧
      (after.lookupGroups = state.lookupGroups ∨
        boundary - numComputedTokens < state.numHitTokens) := by
  unfold Convergence.tighten at tightened
  split at tightened
  · exact ⟨capped, le_rfl, conclude_eq_some tightened⟩
  · cases tightened
  · exact ⟨_, min_le_left _ _, conclude_eq_some tightened⟩

/-- The boundary a group is asked about. -/
def cappedBoundary (status : RequestOffloadState) (state : Convergence numComputedTokens)
    (group : GroupOffloadConfig) : Nat :=
  min state.maxHitSizeTokens
    ((status.groupStates group.groupIdx).offloadKeys.length * group.tokensPerChunk)

def groupKeys (status : RequestOffloadState) (state : Convergence numComputedTokens)
    (group : GroupOffloadConfig) : List OffloadKey :=
  queriedKeys (status.groupStates group.groupIdx).offloadKeys group numComputedTokens
    (cappedBoundary status state group) (state.eagleUnverified group)

/-- A group is left early, or its answer moves the search on. -/
theorem lookup_group_ok {state : Convergence numComputedTokens} {manager last : M}
    {group : GroupOffloadConfig} {result : Option (Convergence numComputedTokens)}
    (looked : lookupGroup config mirrorLocal status state manager group = .ok (result, last)) :
    status.req.numTokens / group.tokensPerChunk ≤
        (status.groupStates group.groupIdx).offloadKeys.length ∧
      ((cappedBoundary status state group - numComputedTokens < group.tokensPerChunk ∧
          result = none ∧ last = manager) ∨
        (group.tokensPerChunk ≤ cappedBoundary status state group - numComputedTokens ∧
          ∃ numHitChunks, queryGroup mirrorLocal status group (groupKeys status state group)
              (state.eagleUnverified group) manager = .ok (numHitChunks, last) ∧
            result = state.tighten config group (cappedBoundary status state group)
              numHitChunks)) := by
  obtain ⟨_, covered, looked⟩ := bind_eq_ok.mp looked
  refine ⟨py_assert_eq_ok.mp covered, ?_⟩
  simp only at looked
  split at looked
  · rename_i short
    cases looked
    exact .inl ⟨short, rfl, rfl⟩
  · rename_i enough
    obtain ⟨⟨numHitChunks, middle⟩, queried, done⟩ := bind_eq_ok.mp looked
    cases done
    exact .inr ⟨Nat.le_of_not_lt enough, numHitChunks, queried, rfl⟩

theorem lookup_group_lowers {state after : Convergence numComputedTokens} {manager last : M}
    {group : GroupOffloadConfig}
    (looked : lookupGroup config mirrorLocal status state manager group =
      .ok (some after, last)) :
    after.maxHitSizeTokens ≤ state.maxHitSizeTokens ∧
      (after.lookupGroups = state.lookupGroups ∨
        after.maxHitSizeTokens < state.maxHitSizeTokens) := by
  obtain ⟨_, ⟨_, early, _⟩ | ⟨_, numHitChunks, _, answered⟩⟩ := lookup_group_ok looked
  · cases early
  · obtain ⟨boundary, le, _, maxHit, _, again⟩ := tighten_eq_some answered.symm
    have hit_le := state.hit_le
    have below : boundary ≤ state.maxHitSizeTokens := le.trans (min_le_left _ _)
    rw [maxHit]
    exact ⟨below, again.imp_right fun smaller => by omega⟩

/-- A pass that asks for another one has lowered the boundary. -/
theorem lookup_pass_lowers (groups : List GroupOffloadConfig)
    {state after : Convergence numComputedTokens} {manager last : M}
    (passed : lookupPass config mirrorLocal status state manager groups =
      .ok (some after, last)) :
    after.maxHitSizeTokens ≤ state.maxHitSizeTokens ∧
      (after.lookupGroups = state.lookupGroups ∨
        after.maxHitSizeTokens < state.maxHitSizeTokens) := by
  induction groups generalizing state manager with
  | nil =>
      cases passed
      exact ⟨le_rfl, .inl rfl⟩
  | cons group rest ih =>
      obtain ⟨⟨middle, next⟩, looked, passed⟩ := bind_eq_ok.mp passed
      cases middle with
      | none => cases passed
      | some middle =>
          obtain ⟨first_le, first⟩ := lookup_group_lowers looked
          obtain ⟨rest_le, rest⟩ := ih passed
          refine ⟨rest_le.trans first_le, ?_⟩
          rcases rest with same | lower
          · exact first.imp (same.trans ·) (rest_le.trans_lt ·)
          · exact .inr (lower.trans_le first_le)

end Termination

/-- The passes until no group asks for another one. -/
def converge (state : Convergence numComputedTokens) (manager : M) :
    List GroupOffloadConfig →
      Except PyError (Option (Convergence numComputedTokens) × M)
  | [] => .ok (some state, manager)
  | group :: rest =>
      match _passed : lookupPass config mirrorLocal status state.startPass manager
          (group :: rest) with
      | .error problem => .error problem
      | .ok (none, manager) => .ok (none, manager)
      | .ok (some after, manager) => converge after manager after.lookupGroups
  termination_by groups => if groups = [] then 0 else state.maxHitSizeTokens + 1
  decreasing_by
    obtain ⟨_, again⟩ := lookup_pass_lowers _ _passed
    rcases again with none | lower
    · rw [none]
      simp [Convergence.startPass]
    · have shrinks : after.maxHitSizeTokens < state.maxHitSizeTokens := lower
      split <;> simp [shrinks]

/-- The boundary above which nothing is looked up. -/
def initialBoundary (mambaAlignSize : Option Nat) (numTokens : Nat) : Nat :=
  if config.slidingWindowGroups = [] then numTokens
  else
    match mambaAlignSize with
    | none => numTokens - 1
    | some align => roundDown (numTokens - 1) align

/-- Whether a hit chunk of the boundary is already being loaded. -/
def beingLoaded (chunksBeingLoaded : Option (Finset OffloadKey)) (numHitTokens : Nat) : Bool :=
  match chunksBeingLoaded with
  | none => false
  | some loading => config.kvGroupConfigs.any fun group =>
      let offloadKeys := (status.groupStates group.groupIdx).offloadKeys
      let numComputedTokens := status.numLocallyComputedTokens
      let numChunks := cdiv (numComputedTokens + numHitTokens) group.tokensPerChunk
      let keys := (offloadKeys.take numChunks).drop (numComputedTokens / group.tokensPerChunk)
      let keys := match group.slidingWindowSizeInChunks with
        | none => keys
        | some window => keys.drop (keys.length - window)
      keys.any fun key => key ∈ loading

/-- `none` when the lookup is deferred or a hit chunk is being loaded. -/
def lookupCompleteChunks (mambaAlignSize : Option Nat)
    (chunksBeingLoaded : Option (Finset OffloadKey)) (manager : M) :
    Except PyError (Option Nat × M) := do
  let start : Convergence status.numLocallyComputedTokens :=
    { maxHitSizeTokens := initialBoundary config mambaAlignSize status.req.numTokens
      numHitTokens := 0
      deferLookup := false
      eagleVerified := []
      lookedUpSlidingWindow := false
      lookupGroups := []
      hit_le := Nat.zero_le _ }
  match ← converge config mirrorLocal status start manager config.lookupGroups with
  | (none, manager) => .ok (some 0, manager)
  | (some state, manager) =>
      if state.deferLookup then .ok (none, manager)
      else if beingLoaded config status chunksBeingLoaded state.numHitTokens then
        .ok (none, manager)
      else .ok (some state.numHitTokens, manager)

/-- One boundary of the partial tail: whether a group missed and whether one is
pending. The groups after a miss are not asked. -/
def lookupBoundary (boundary : Nat) (manager : M) (boundaryPending : Bool) :
    List GroupOffloadConfig → Except PyError ((Bool × Bool) × M)
  | [] => .ok ((false, boundaryPending), manager)
  | group :: rest => do
      let key ← makeBoundaryKey config status.req group.groupIdx boundary
      match ← OffloadingLookup.lookup manager key status.reqContext with
      | (.miss, manager) => .ok ((true, boundaryPending), manager)
      | (.hit, manager) => lookupBoundary boundary manager boundaryPending rest
      | (_, manager) => lookupBoundary boundary manager true rest

/-- The first boundary that every group hits, and whether one was pending before it. -/
def scanTail (manager : M) (pending : Bool) :
    List Nat → Except PyError ((Option Nat × Bool) × M)
  | [] => .ok ((none, pending), manager)
  | boundary :: rest => do
      let ((missed, boundaryPending), manager) ←
        lookupBoundary config status boundary manager false config.kvGroupConfigs
      if missed = false ∧ boundaryPending = false then .ok ((some boundary, pending), manager)
      else scanTail manager (pending || boundaryPending) rest

/-- The boundaries of the partial tail, longest first. -/
def tailBoundaries (completeBoundary : Nat) : List Nat :=
  let blockEnd := completeBoundary + config.partialTailBlockSize
  let maxBoundary := roundDown (min (status.req.numPromptTokens - 1) (blockEnd - 1))
    config.tokensPerHash
  (List.range (cdiv (maxBoundary - completeBoundary) config.tokensPerHash)).map fun index =>
    maxBoundary - index * config.tokensPerHash

/-- The hit tokens and the partial-tail boundary the request keeps. -/
def lookup (mambaAlignSize : Option Nat) (chunksBeingLoaded : Option (Finset OffloadKey))
    (manager : M) : Except PyError ((Option Nat × Option Nat) × M) := do
  let (completeHit, manager) ←
    lookupCompleteChunks config mirrorLocal status mambaAlignSize chunksBeingLoaded manager
  match completeHit with
  | none => .ok ((none, none), manager)
  | some completeHit =>
      if config.supportsPartialTail = false then .ok ((some completeHit, none), manager)
      else do
        let localTokens := status.numLocallyComputedTokens
        let ((boundary, pending), manager) ←
          scanTail config status manager false (tailBoundaries config status
            (localTokens + completeHit))
        match boundary with
        | some boundary => .ok ((some (boundary - localTokens), some boundary), manager)
        | none =>
            if pending = true ∧ completeHit = 0 then .ok ((none, none), manager)
            else .ok ((some completeHit, none), manager)

end KvOffload.ConnectorLookup
