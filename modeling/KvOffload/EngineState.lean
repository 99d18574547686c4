import KvOffload.Base

/-!
# State of the engine scheduler

The requests of the scheduler that drives the connector, its queues and its counters. The queues,
the KV cache manager, the connector and the grammars are outside: a queue is known by its
contents, and what the others answer is a stream that the scheduler reads one entry at a time.
Calls into them are logged. Encoder inputs, LoRA, pooled prefill statistics, zeroing of blocks and
routed experts are left out.
-/

namespace KvOffload.EngineState

open KvOffload KvOffload.Base

set_option autoImplicit false

inductive FinishedStatus where
  | stopped
  | lengthCapped
  | aborted
  | error
  deriving DecidableEq

inductive RequestStatus where
  | waiting
  | waitingForStructuredOutputGrammar
  | waitingForRemoteKvs
  | waitingForStreamingReq
  | running
  | preempted
  | finished (how : FinishedStatus)
  deriving DecidableEq

namespace RequestStatus

def isFinished : RequestStatus → Bool
  | finished _ => true
  | _ => false

/-- `_is_blocked_waiting_status` -/
def isBlocked : RequestStatus → Bool
  | waitingForStructuredOutputGrammar | waitingForRemoteKvs | waitingForStreamingReq => true
  | _ => false

end RequestStatus

structure StreamingUpdate where
  promptTokenIds : List Int
  arrivalTime : Nat
  deriving DecidableEq

structure Request where
  requestId : ReqId
  status : RequestStatus := .waiting
  allTokenIds : List Int
  outputTokenIds : List Int := []
  numPromptTokens : Nat
  maxTokens : Nat
  specTokenIds : List Int := []
  numComputedTokens : Int := 0
  numOutputPlaceholders : Int := 0
  numInFlightTokens : Int := 0
  numStaleOutputTokens : Int := 0
  dropStaleOutput : Bool := false
  numPreemptions : Nat := 0
  isPrefillChunk : Bool := false
  lastSchedSeq : Nat := 0
  nextDecodeEligibleStep : Nat := 0
  sharedPrefixBoundary : Nat := 0
  priority : Int := 0
  arrivalTime : Nat := 0
  resumable : Bool := false
  streamingQueue : Option (List (Option StreamingUpdate)) := none
  deriving DecidableEq

namespace Request

variable (request : Request)

def numTokens : Int := request.allTokenIds.length

def numTokensWithSpec : Int := request.numTokens + request.specTokenIds.length

def isFinished : Bool := request.status.isFinished

def withStatus (status : RequestStatus) : Request := { request with status := status }

def withComputed (numComputedTokens : Int) : Request :=
  { request with numComputedTokens := numComputedTokens }

end Request

/-- A queue of waiting requests; `peek` shows the one that `pop` takes. -/
class RequestQueue (Q : Type) where
  empty : Q
  items : Q → List ReqId
  peek : Q → Option ReqId
  pop : Q → Q
  add : Q → Request → Q
  prepend : Q → Request → Q
  /-- `prepend_requests` -/
  prependAll : Q → Q → Q
  /-- `remove_requests` -/
  remove : Q → List ReqId → Q

/-- The contents of a queue after each operation, in any order. -/
class LawfulRequestQueue (Q : Type) extends RequestQueue Q where
  items_empty : items empty = []
  items_peek : ∀ queue reqId, peek queue = some reqId →
    (items queue).Perm (reqId :: items (pop queue))
  items_of_peek_none : ∀ queue, peek queue = none → items queue = []
  items_add : ∀ queue request, (items (add queue request)).Perm (request.requestId :: items queue)
  items_prepend : ∀ queue request,
    (items (prepend queue request)).Perm (request.requestId :: items queue)
  items_prepend_all : ∀ queue other,
    (items (prependAll queue other)).Perm (items other ++ items queue)
  items_remove : ∀ queue removed,
    (items (remove queue removed)).Perm ((items queue).filter fun reqId => reqId ∉ removed)

inductive SchedulingPolicy where
  | fcfs
  | priority
  deriving DecidableEq

inductive PauseState where
  | unpaused
  | pausedNew
  | pausedAll
  deriving DecidableEq

/-- `precedes` is the order of requests by priority, and `checkStop` the status with which a
request stops after its last token. `draftSlots` are the slots a request needs for drafting. -/
structure EngineConfig where
  policy : SchedulingPolicy
  precedes : Request → Request → Bool
  checkStop : Request → Nat → Option FinishedStatus
  maxNumRunningReqs : Nat
  maxNumScheduledTokens : Nat
  maxNumBatchedTokens : Nat
  draftSlots : Nat := 0
  maxModelLen : Nat
  numSampledTokensPerStep : Nat := 1
  longPrefillTokenThreshold : Nat := 0
  enableChunkedPrefill : Bool := true
  numSpecTokens : Nat := 0
  dynamicSpecDecode : Bool := false
  numLookaheadTokens : Nat := 0
  blockSize : Nat
  blockSize_pos : 0 < blockSize
  hashBlockSize : Nat
  useEagle : Bool := false
  needMambaBlockAlignedSplit : Bool := false
  mambaPartialCacheHit : Bool := false
  divergentLocalHits : Bool := false
  reserveFullIsl : Bool := false
  escapeRelaxFullFit : Bool := true
  requiresKvDelivery : Bool := false
  deferBlockFree : Bool := false
  recomputeKvLoadFailures : Bool := true

/-- What a step hands to the workers and to the connector. -/
structure SchedulerOutput where
  scheduledNewReqs : List ReqId
  scheduledResumedReqs : List ReqId
  scheduledRunningReqs : List ReqId
  numScheduledTokens : OrderedMap ReqId Int
  scheduledSpecDecodeTokens : OrderedMap ReqId (List Int)
  newBlocks : OrderedMap ReqId (List Nat)
  preemptedReqIds : List ReqId
  finishedReqIds : List ReqId

def SchedulerOutput.totalNumScheduledTokens (output : SchedulerOutput) : Int :=
  (output.numScheduledTokens.entries.map Prod.snd).sum

inductive GrammarState where
  | pending
  | ready
  | failed
  deriving DecidableEq

/-- The calls that leave the scheduler. -/
inductive EngineCall where
  | getComputedBlocks (reqId : ReqId)
  | getComputedBlocksForConnector (reqId : ReqId)
  | truncateComputedBlocks (reqId : ReqId) (numTokens : Nat)
  | allocateSlots (reqId : ReqId) (numNewTokens : Int) (numLocalTokens numExternalTokens : Nat)
      (numLookaheadTokens : Nat) (delayCacheBlocks fullSequenceMustFit : Bool)
  | getBlocks (reqId : ReqId)
  | cacheBlocks (reqId : ReqId) (numComputedTokens : Int)
  | free (reqId : ReqId)
  | popBlocksForFree (reqId : ReqId)
  | freeBlocks (blocks : List Nat)
  | takeBlockCopies
  | evictBlocks (blockIds : List Nat)
  | resetPrefixCache
  | grammarOf (reqId : ReqId)
  | onNewRequest (reqId : ReqId)
  | getNumNewMatchedTokens (reqId : ReqId) (numComputedTokens : Nat)
  | isStaleHitEscape (reqId : ReqId)
  | updateStateAfterAlloc (reqId : ReqId) (numExternalTokens : Nat)
  | buildConnectorMeta (output : SchedulerOutput)
  | updateConnectorOutput
  | requestFinished (reqId : ReqId)
  | resetConnectorCache

/-- The request of a call to the connector that serves it. -/
def EngineCall.serves : EngineCall → Option ReqId
  | .getNumNewMatchedTokens reqId _ | .isStaleHitEscape reqId | .updateStateAfterAlloc reqId _ =>
      some reqId
  | _ => none

/-- Calls that neither open or close a request at the connector, end a step or release blocks. -/
def EngineCall.isPlain : EngineCall → Bool
  | .onNewRequest _ | .requestFinished _ | .buildConnectorMeta _ | .free _
  | .popBlocksForFree _ | .freeBlocks _ => false
  | _ => true

/-- One answer; a call reads the fields it is about. `newBlocks` answers an allocation, `matched`
and `loadKvAsync` the connector, and `succeeds` a reset or a request to delay the release. -/
structure Answer where
  newBlocks : Option (List Nat) := some []
  blockIds : List Nat := []
  numLocalTokens : Nat := 0
  sharedPrefixBoundary : Nat := 0
  hitDiverged : Bool := false
  matched : Option Nat := some 0
  loadKvAsync : Bool := false
  grammar : GrammarState := .ready
  succeeds : Bool := false
  deriving DecidableEq

/-- Where the scheduler raises. `answered` stands for the assertions about what the KV cache
manager and the connector answered, `noNewTokens` for the one that a waiting request has tokens
left to compute. -/
inductive EngineError where
  | untracked
  | noneRunning
  | notRunning
  | notScheduled
  | invalidStatus
  | limits
  | answered
  | noNewTokens
  | notFinished
  | unfinishedSession
  | duplicateId
  | noTokens
  | negativeStale
  | resetFailed
  deriving DecidableEq

structure Engine (Q : Type) where
  config : EngineConfig
  requests : OrderedMap ReqId Request := .empty
  waiting : Q
  skippedWaiting : Q
  running : List ReqId := []
  finishedReqIds : List ReqId := []
  resetPreemptedReqIds : List ReqId := []
  numWaitingForStreamingInput : Int := 0
  finishedRecvingKvReqIds : List ReqId := []
  failedRecvingKvReqIds : List ReqId := []
  grammarCompileErrorReqs : List ReqId := []
  currentStep : Nat := 0
  prefillCapacityBound : Bool := false
  schedStepSeq : Nat := 0
  processedStepSeq : Nat := 0
  deferredFrees : List (Nat × List Nat) := []
  pauseState : PauseState := .unpaused
  answers : Nat → Answer
  calls : List EngineCall := []

namespace Engine

variable {Q : Type} (engine : Engine Q)

def new [RequestQueue Q] (config : EngineConfig) (answers : Nat → Answer) : Engine Q where
  config := config
  waiting := RequestQueue.empty
  skippedWaiting := RequestQueue.empty
  answers := answers

/-- A call that leaves the scheduler, with its answer. -/
def query (call : EngineCall) : Answer × Engine Q :=
  (engine.answers engine.calls.length, { engine with calls := engine.calls ++ [call] })

def tell (call : EngineCall) : Engine Q := (engine.query call).2

def request (reqId : ReqId) : Except EngineError Request :=
  match engine.requests.get? reqId with
  | some request => .ok request
  | none => .error .untracked

def setRequest (request : Request) : Engine Q :=
  { engine with requests := engine.requests.set request.requestId request }

/-- `_free_request_blocks` -/
def freeRequestBlocks (request : Request) : Engine Q :=
  if engine.config.deferBlockFree = false ∨ request.lastSchedSeq ≤ engine.processedStepSeq then
    engine.tell (.free request.requestId)
  else
    let (answer, engine) := engine.query (.popBlocksForFree request.requestId)
    if answer.blockIds = [] then engine
    else { engine with
      deferredFrees := engine.deferredFrees ++ [(engine.schedStepSeq, answer.blockIds)] }

/-- `_free_cow_retained_blocks` -/
def freeCowRetainedBlocks (blocks : List Nat) (fenceSeq : Nat) : Engine Q :=
  if engine.config.deferBlockFree = false ∨ fenceSeq ≤ engine.processedStepSeq then
    engine.tell (.freeBlocks blocks)
  else { engine with deferredFrees := engine.deferredFrees ++ [(fenceSeq, blocks.reverse)] }

/-- `_drain_deferred_frees`; the entries that are left are given beside. -/
def drainDeferredFrees : List (Nat × List Nat) → Engine Q → Engine Q
  | [], engine => { engine with deferredFrees := [] }
  | (fence, blocks) :: rest, engine =>
      if engine.processedStepSeq < fence then
        { engine with deferredFrees := (fence, blocks) :: rest }
      else drainDeferredFrees rest (engine.tell (.freeBlocks blocks.reverse))

/-- The request after `_preempt_request`. -/
def preempted (request : Request) (dropStaleOutput : Bool) : Request :=
  { request with
    status := .preempted
    numComputedTokens := 0
    specTokenIds := []
    dropStaleOutput := dropStaleOutput ||
      (request.dropStaleOutput && decide (0 < request.numStaleOutputTokens))
    numStaleOutputTokens := request.numInFlightTokens
    numOutputPlaceholders := 0
    numPreemptions := request.numPreemptions + 1 }

variable [RequestQueue Q]

/-- `_preempt_request`; the request is out of the running list already. -/
def preemptRequest (request : Request) (dropStaleOutput : Bool) : Except EngineError (Engine Q) :=
  if request.status ≠ .running then .error .notRunning
  else
    let engine := engine.freeRequestBlocks request
    let request := preempted request dropStaleOutput
    let engine := engine.setRequest request
    .ok { engine with
      waiting := RequestQueue.prepend engine.waiting request
      resetPreemptedReqIds := engine.resetPreemptedReqIds.insert request.requestId }

/-- `_enqueue_waiting_request` -/
def enqueueWaitingRequest (request : Request) : Engine Q :=
  if request.status.isBlocked then
    { engine with skippedWaiting := RequestQueue.add engine.skippedWaiting request }
  else { engine with waiting := RequestQueue.add engine.waiting request }

end Engine

end KvOffload.EngineState
