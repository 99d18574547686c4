import KvOffload.ConnectorConfig

/-!
# Requests of the offloading connector

What the connector keeps for a request: for each KV cache group the chunk keys,
its copy of the block table and the store pointer. The request object itself is
shared with the scheduler core, which changes it between calls.
-/

namespace KvOffload.ConnectorRequests

open KvOffload KvOffload.Base KvOffload.ConnectorConfig

set_option autoImplicit false

inductive RequestStatus where
  | unfinished
  | finished
  | finishedAborted
  deriving DecidableEq, Repr

/-- `maxOffloadTokens` is the raw transfer parameter, when it is an integer. -/
structure Request where
  requestId : ReqId
  numTokens : Nat
  numPromptTokens : Nat
  numComputedTokens : Nat
  blockHashes : List BlockHash
  status : RequestStatus := .unfinished
  skipReadingPrefixCache : Bool := false
  loadTierFilter : TierFilter := TierFilter.all
  maxOffloadTokens : Option Int := none

def Request.isFinished (req : Request) : Bool := req.status ≠ .unfinished

def createReqContext (req : Request) : ReqContext := ⟨req.requestId, req.loadTierFilter⟩

structure RequestGroupState where
  offloadKeys : List OffloadKey := []
  blockIds : List Nat := []
  nextStoredChunkIdx : Nat := 0
  numHitChunks : Nat := 0

/-- The stale-hit ladder of a request. Token counts that start at `-1` are integers;
`lastHitTokens` is `none` after a deferred lookup. -/
structure StaleHit where
  streak : Nat := 0
  lastHitTokens : Option Int := some (-1)
  lastNumComputed : Int := -1
  lastTs : Rat := 0
  repeatCount : Nat := 0
  pinnedUntil : Rat := 0
  fallbackCount : Nat := 0
  wallStart : Rat := 0
  escape : Bool := false
  escapeRefusalUntil : Rat := 0
  escapeRefusalNotified : Bool := false
  escapeClaimActive : Bool := false
  escapeClaimHitTokens : Int := -1
  escapeClaimNumComputed : Int := -1
  deriving DecidableEq

/-- `groupStates` is indexed by the original group index. -/
structure RequestOffloadState where
  req : Request
  reqContext : ReqContext
  policy : OffloadPolicy
  groupStates : Nat → RequestGroupState
  maxOffloadTokens : Option Nat
  numLocallyComputedTokens : Nat := 0
  transferJobs : List JobId := []
  partialTailBoundary : Option Nat := none
  finishedSignaled : Bool := false
  staleHit : StaleHit := {}

namespace RequestOffloadState

def new (req : Request) (reqContext : ReqContext) (policy : OffloadPolicy) :
    RequestOffloadState where
  req := req
  reqContext := reqContext
  policy := policy
  groupStates := fun _ => {}
  maxOffloadTokens := req.maxOffloadTokens.bind fun raw => if 0 ≤ raw then some raw.toNat else none

variable (status : RequestOffloadState)

def mapGroups (change : Nat → RequestGroupState → RequestGroupState) : RequestOffloadState :=
  { status with groupStates := fun groupIdx => change groupIdx (status.groupStates groupIdx) }

@[simp] theorem map_groups_states (change : Nat → RequestGroupState → RequestGroupState)
    (groupIdx : Nat) : (status.mapGroups change).groupStates groupIdx =
      change groupIdx (status.groupStates groupIdx) := rfl

def groupConfig (config : SchedulerOffloadConfig) (groupIdx : Nat) : Option GroupOffloadConfig :=
  config.kvGroupConfigs.find? fun group => group.groupIdx = groupIdx

/-- The state changes of an offloaded group; the other groups are left alone. -/
def mapOffloaded (config : SchedulerOffloadConfig)
    (change : GroupOffloadConfig → RequestGroupState → RequestGroupState) :
    RequestOffloadState :=
  status.mapGroups fun groupIdx state =>
    match groupConfig config groupIdx with
    | none => state
    | some group => change group state

/-- `islice(hashes, start, None, step)` for a positive step. -/
def islice (hashes : List BlockHash) (start step : Nat) : List BlockHash :=
  (List.range (cdiv (hashes.length - start) step)).filterMap fun index =>
    hashes[start + index * step]?

/-- Keys of the chunks whose last hash has become known. -/
def newOffloadKeys (req : Request) (group : GroupOffloadConfig) (known : Nat) :
    List OffloadKey :=
  (islice req.blockHashes (group.hashesPerChunk * known + group.hashesPerChunk - 1)
    group.hashesPerChunk).map fun blockHash => makeOffloadKey blockHash group.groupIdx

def updateOffloadKeys (config : SchedulerOffloadConfig) : RequestOffloadState :=
  status.mapOffloaded config fun group state =>
    let newKeys := newOffloadKeys status.req group state.offloadKeys.length
    { state with offloadKeys := state.offloadKeys ++ newKeys }

def clearBlockIds : RequestOffloadState :=
  status.mapGroups fun _ state => { state with blockIds := [] }

def updateBlockIdGroups (config : SchedulerOffloadConfig) (newBlockIdGroups : List (List Nat)) :
    Except PyError RequestOffloadState := do
  pyAssert (newBlockIdGroups.length = config.numKvCacheGroups)
  .ok (status.mapGroups fun groupIdx state =>
    { state with blockIds := state.blockIds ++ newBlockIdGroups.getD groupIdx [] })

/-- Leading chunks that can be stored. While decoding, the volatile trailing
chunk of an EAGLE group is left out. -/
def storableChunks (config : SchedulerOffloadConfig) (group : GroupOffloadConfig)
    (state : RequestGroupState) (numOffloadableTokens : Nat) : Nat :=
  let numChunks := numOffloadableTokens / group.tokensPerChunk
  let isDecoding := status.req.numPromptTokens < numOffloadableTokens
  let numChunks := if group.isEagleGroup = true ∧ isDecoding then numChunks - 1 else numChunks
  min numChunks (state.blockIds.length / config.blocksPerChunk)

def advanceStoredIdx (config : SchedulerOffloadConfig) (numOffloadableTokens : Nat) :
    RequestOffloadState :=
  status.mapOffloaded config fun group state =>
    let numChunks := status.storableChunks config group state numOffloadableTokens
    { state with nextStoredChunkIdx := max state.nextStoredChunkIdx numChunks }

def updateNumHitChunks (config : SchedulerOffloadConfig) (numCachedTokens : Nat) :
    RequestOffloadState :=
  status.mapOffloaded config fun group state =>
    { state with numHitChunks := numCachedTokens / group.tokensPerChunk }

def calcNumOffloadableTokens (config : SchedulerOffloadConfig) (numComputedTokens : Nat) : Nat :=
  let num := min numComputedTokens status.req.numTokens
  let num := match status.maxOffloadTokens with
    | none => num
    | some maxOffloadTokens => min num maxOffloadTokens
  if config.offloadPromptOnly then min num status.req.numPromptTokens else num

def withTransferJob (jobId : JobId) : RequestOffloadState :=
  { status with transferJobs := status.transferJobs.insert jobId }

def withPartialTail (boundary : Option Nat) : RequestOffloadState :=
  { status with partialTailBoundary := boundary }

def withStaleHit (staleHit : StaleHit) : RequestOffloadState :=
  { status with staleHit := staleHit }

def withRequest (req : Request) : RequestOffloadState := { status with req := req }

end RequestOffloadState

/-- Python `list[index]` of the hash that ends at the boundary. -/
def makeBoundaryKey (config : SchedulerOffloadConfig) (req : Request) (groupIdx boundary : Nat) :
    Except PyError OffloadKey :=
  match req.blockHashes[boundary / config.tokensPerHash - 1]? with
  | none => .error .indexError
  | some blockHash => .ok (makeOffloadKey blockHash groupIdx)

end KvOffload.ConnectorRequests
