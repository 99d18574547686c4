import KvOffload.EngineScheduling

/-!
# Outputs and requests of the engine scheduler

What the scheduler does with the tokens of a step, with new requests and their updates, with
requests that end, and with the reports of the workers about transfers. The answers to the
clients are left out but for the ids that finish.
-/

namespace KvOffload.EngineOutputs

open KvOffload KvOffload.Base KvOffload.EngineState KvOffload.EngineScheduling

set_option autoImplicit false

variable {Q : Type}

section Release

variable (engine : Engine Q)

/-- `_free_blocks`: the request leaves the scheduler. -/
def freeBlocks (request : Request) : Except EngineError (Engine Q) :=
  if request.isFinished then
    let engine := engine.freeRequestBlocks request
    .ok { engine with requests := engine.requests.erase request.requestId }
  else .error .notFinished

/-- `_free_request`: the connector is told, and may delay the release of the blocks. -/
def freeRequest (request : Request) (delayFreeBlocks : Bool) : Except EngineError (Engine Q) :=
  if request.isFinished then
    let (answer, engine) := engine.query (.requestFinished request.requestId)
    let engine := { engine with
      finishedReqIds := engine.finishedReqIds.insert request.requestId }
    if delayFreeBlocks || answer.succeeds then .ok engine else freeBlocks engine request
  else .error .notFinished

/-- The second pass of `finish_requests` for one request. -/
def finishRequest (finishedStatus : FinishedStatus) (request : Request) :
    Except EngineError (Engine Q) :=
  let reqId := request.requestId
  let loading := decide (request.status = .waitingForRemoteKvs)
  let delayFreeBlocks := loading && decide (reqId ∉ engine.finishedRecvingKvReqIds)
  let engine :=
    if loading then
      { engine with
        finishedRecvingKvReqIds := engine.finishedRecvingKvReqIds.erase reqId
        failedRecvingKvReqIds := engine.failedRecvingKvReqIds.erase reqId }
    else engine
  let request := request.withStatus (.finished finishedStatus)
  freeRequest (engine.setRequest request) request delayFreeBlocks

def finishAll (finishedStatus : FinishedStatus) :
    List Request → Engine Q → Except EngineError (Engine Q)
  | [], engine => .ok engine
  | request :: rest, engine => do
      let engine ← finishRequest engine finishedStatus request
      finishAll finishedStatus rest engine

/-- The requests among the ids that are tracked and not finished. -/
def validRequests (reqIds : List ReqId) : List Request :=
  (reqIds.filterMap engine.requests.get?).filter fun request => !request.isFinished

variable [RequestQueue Q]

/-- The requests leave the queues. -/
def removeFromQueues (removed : List Request) : Engine Q :=
  let isRunning := fun request : Request => decide (request.status = .running)
  let runningIds := (removed.filter isRunning).map Request.requestId
  let waitingIds := (removed.filter fun request => !isRunning request).map Request.requestId
  { engine with
    running := engine.running.filter fun reqId => reqId ∉ runningIds
    waiting := RequestQueue.remove engine.waiting waitingIds
    skippedWaiting := RequestQueue.remove engine.skippedWaiting waitingIds
    numWaitingForStreamingInput := engine.numWaitingForStreamingInput -
      (removed.filter fun request => decide (request.status = .waitingForStreamingReq)).length }

/-- `finish_requests` -/
def finishRequests (reqIds : List ReqId) (finishedStatus : FinishedStatus) :
    Except EngineError (Engine Q) :=
  let valid := validRequests engine reqIds.dedup
  finishAll finishedStatus valid (removeFromQueues engine valid)

end Release

section Sessions

/-- The request after `_update_request_as_session`. -/
def updatedSession (session : Request) (update : StreamingUpdate) : Request :=
  let numComputed := session.numComputedTokens.toNat
  let keptOutput := (session.allTokenIds.take numComputed).drop session.numPromptTokens
  { session with
    allTokenIds := session.allTokenIds.take numComputed ++ update.promptTokenIds
    outputTokenIds := []
    numPromptTokens := session.numPromptTokens + keptOutput.length + update.promptTokenIds.length
    arrivalTime := update.arrivalTime
    status := .waiting }

/-- `_update_request_as_session` -/
def updateRequestAsSession (engine : Engine Q) (session : Request) (update : StreamingUpdate) :
    Engine Q :=
  let waits := if session.status = .waitingForStreamingReq then 1 else 0
  { engine.setRequest (updatedSession session update) with
    numWaitingForStreamingInput := engine.numWaitingForStreamingInput - waits }

variable [RequestQueue Q]

/-- `add_request`; the update is what `StreamingUpdate.from_request` makes of the request, `none`
for the end of a session. -/
def addRequest (engine : Engine Q) (request : Request) (update : Option StreamingUpdate) :
    Except EngineError (Engine Q) :=
  match engine.requests.get? request.requestId with
  | some existing =>
      if existing.status ≠ .waitingForStreamingReq then
        match existing.streamingQueue with
        | none => .error .duplicateId
        | some queue =>
            .ok (engine.setRequest { existing with streamingQueue := some (queue ++ [update]) })
      else
        match update with
        | some update => .ok (updateRequestAsSession engine existing update)
        | none => finishRequests engine [request.requestId] .aborted
  | none =>
      let request := if request.resumable then { request with streamingQueue := some [] }
        else request
      let engine := engine.enqueueWaitingRequest request
      .ok ((engine.setRequest request).tell (.onNewRequest request.requestId))

/-- `_handle_stopped_request`: whether the request is finished. -/
def handleStoppedRequest (engine : Engine Q) (request : Request) : Bool × Request × Engine Q :=
  if request.resumable = false then (true, request, engine)
  else
    match request.streamingQueue.getD [] with
    | none :: rest =>
        let request := { request with streamingQueue := some rest }
        (true, request, engine.setRequest request)
    | some update :: rest =>
        let request := { request with streamingQueue := some rest }
        let engine := updateRequestAsSession engine request update
        let request := updatedSession request update
        (false, request, engine.enqueueWaitingRequest request)
    | [] =>
        let request := request.withStatus .waitingForStreamingReq
        let engine := engine.setRequest request
        let engine := { engine with
          numWaitingForStreamingInput := engine.numWaitingForStreamingInput + 1 }
        (false, request, engine.enqueueWaitingRequest request)

end Sessions

section Outputs

/-- What the workers report of a step: the sampled tokens, the requests whose pooling is done and
those whose grammar rejects the tokens, blocks that failed to load, and finished transfers. -/
structure ModelRunnerOutput where
  sampledTokenIds : ReqId → List Int := fun _ => []
  pooled : ReqId → Bool := fun _ => false
  grammarRejects : ReqId → Bool := fun _ => false
  invalidBlockIds : List Nat := []
  finishedRecving : List ReqId := []
  finishedSending : List ReqId := []

/-- The loop of `_update_request_with_output`. -/
def appendOutputs (config : EngineConfig) : List Int → Request → Request × Bool
  | [], request => (request, false)
  | token :: rest, request =>
      let request := { request with
        allTokenIds := request.allTokenIds ++ [token]
        outputTokenIds := request.outputTokenIds ++ [token] }
      match config.checkStop request config.maxModelLen with
      | some how => (request.withStatus (.finished how), true)
      | none => appendOutputs config rest request

/-- The tokens of the step are no longer in flight, and their stale share is drained. The flag
tells a stale output. -/
def drain (request : Request) (numTokens : Int) : Except EngineError (Request × Bool) :=
  let request := { request with numInFlightTokens := request.numInFlightTokens - numTokens }
  if 0 < request.numStaleOutputTokens then
    let request := { request with numStaleOutputTokens := request.numStaleOutputTokens - numTokens }
    if request.numStaleOutputTokens < 0 then .error .negativeStale else .ok (request, true)
  else .ok (request, false)

/-- Drafted tokens that were rejected are taken back, unless the output is stale. -/
def rollBack (config : EngineConfig) (numDrafted numSampled : Nat) (isStale : Bool)
    (request : Request) : Request :=
  if numDrafted = 0 ∨ (numSampled = 0 ∧ config.numSampledTokensPerStep ≠ 0) ∨ isStale then request
  else
    let numAccepted : Int := max ((numSampled : Int) - config.numSampledTokensPerStep) 0
    let numRejected : Int := numDrafted - numAccepted
    { request with
      numComputedTokens := if 0 < request.numComputedTokens then
        request.numComputedTokens - numRejected else request.numComputedTokens
      numOutputPlaceholders := if 0 < request.numOutputPlaceholders then
        request.numOutputPlaceholders - numRejected else request.numOutputPlaceholders }

/-- The request after its new tokens, and whether it stops. -/
def takeTokens (config : EngineConfig) (output : ModelRunnerOutput) (request : Request) :
    Request × Bool :=
  let sampled := output.sampledTokenIds request.requestId
  let (request, stopped) :=
    if sampled ≠ [] then appendOutputs config sampled request
    else if output.pooled request.requestId then (request.withStatus (.finished .stopped), true)
    else (request, false)
  if sampled ≠ [] ∧ output.grammarRejects request.requestId then
    ({ request.withStatus (.finished .error) with resumable := false }, true)
  else (request, stopped)

/-- The engine and the ids that stopped, running ones and preempted ones. -/
structure Progress (Q : Type) where
  engine : Engine Q
  stoppedRunning : List ReqId := []
  stoppedPreempted : List ReqId := []

variable [RequestQueue Q]

/-- A request that stops is released or goes on with its session. -/
def stopRequest (progress : Progress Q) (before : RequestStatus) (request : Request) :
    Except EngineError (Progress Q) := do
  let (finished, request, engine) := handleStoppedRequest progress.engine request
  let engine ← if finished then freeRequest engine request false else .ok engine
  if before = .running then
    .ok ⟨engine, progress.stoppedRunning ++ [request.requestId], progress.stoppedPreempted⟩
  else .ok ⟨engine, progress.stoppedRunning, progress.stoppedPreempted ++ [request.requestId]⟩

/-- The loop of `update_from_output` for one request. -/
def updateRequest (output : SchedulerOutput) (result : ModelRunnerOutput) (failed : List ReqId)
    (progress : Progress Q) (entry : ReqId × Int) : Except EngineError (Progress Q) :=
  let (reqId, numTokensScheduled) := entry
  if numTokensScheduled ≤ 0 then .error .noTokens
  else
    match progress.engine.requests.get? reqId with
    | none => .ok progress
    | some request => do
        let (request, isStale) ← drain request numTokensScheduled
        let engine := progress.engine.setRequest request
        if reqId ∈ failed ∨ request.isFinished ∨ (isStale ∧ request.dropStaleOutput) then
          .ok { progress with engine := engine }
        else
          let numDrafted := ((output.scheduledSpecDecodeTokens.get? reqId).getD []).length
          let request := rollBack engine.config numDrafted
            (result.sampledTokenIds reqId).length isStale request
          let before := request.status
          let (request, stopped) := takeTokens engine.config result request
          let progress := { progress with engine := engine.setRequest request }
          if stopped then stopRequest progress before request else .ok progress

def updateRequests (output : SchedulerOutput) (result : ModelRunnerOutput) (failed : List ReqId) :
    List (ReqId × Int) → Progress Q → Except EngineError (Progress Q)
  | [], progress => .ok progress
  | entry :: rest, progress => do
      let progress ← updateRequest output result failed progress entry
      updateRequests output result failed rest progress

/-- Stopped requests leave the queues they were in. -/
def removeStopped (progress : Progress Q) : Engine Q :=
  let engine := progress.engine
  { engine with
    running := engine.running.filter fun reqId => reqId ∉ progress.stoppedRunning
    waiting := RequestQueue.remove engine.waiting progress.stoppedPreempted
    skippedWaiting := RequestQueue.remove engine.skippedWaiting progress.stoppedPreempted }

omit [RequestQueue Q] in
def receive (engine : Engine Q) : List ReqId → Except EngineError (Engine Q)
  | [] => .ok engine
  | reqId :: rest =>
      match engine.requests.get? reqId with
      | none => receive engine rest
      | some request =>
          if request.status = .waitingForRemoteKvs then
            receive { engine with
              finishedRecvingKvReqIds := engine.finishedRecvingKvReqIds.insert reqId } rest
          else if request.isFinished then do
            let engine ← freeBlocks engine request
            receive engine rest
          else receive engine rest

omit [RequestQueue Q] in
def send (engine : Engine Q) : List ReqId → Except EngineError (Engine Q)
  | [] => .ok engine
  | reqId :: rest =>
      match engine.requests.get? reqId with
      | none => send engine rest
      | some request => do
          let engine ← freeBlocks engine request
          send engine rest

omit [RequestQueue Q] in
/-- `_update_from_kv_xfer_finished` -/
def updateFromKvXferFinished (engine : Engine Q) (result : ModelRunnerOutput) :
    Except EngineError (Engine Q) := do
  let engine ← receive (engine.tell .updateConnectorOutput) result.finishedRecving
  send engine result.finishedSending

end Outputs

section InvalidBlocks

/-- The locals of the scan for blocks that failed to load: those of the request that is scanned,
and what is summed up over all requests. -/
structure BlockScan where
  numComputedTokens : Int
  isAffected : Bool := false
  markedInvalidBlock : Bool := false
  markedInvalidBlockIds : List Nat
  totalAffectedTokens : Int
  blocksToEvict : List Nat

/-- One block of a request that may hold loaded tokens. -/
def scanBlock (blockSize : Nat) (invalidBlockIds : List Nat) (evictBlocks : Bool)
    (numCached : Int) (blockIds : List Nat) (scan : BlockScan) (entry : Nat × Nat) : BlockScan :=
  let (blockId, idx) := entry
  if blockId ∉ invalidBlockIds then scan
  else if blockId ∈ scan.markedInvalidBlockIds then { scan with isAffected := true }
  else
    let scan := { scan with
      isAffected := true
      markedInvalidBlockIds := scan.markedInvalidBlockIds.insert blockId }
    if scan.markedInvalidBlock then scan
    else { scan with
      markedInvalidBlock := true
      numComputedTokens := idx * blockSize
      totalAffectedTokens := scan.totalAffectedTokens + (numCached - idx * blockSize)
      blocksToEvict :=
        if evictBlocks then scan.blocksToEvict ∪ blockIds.drop idx else scan.blocksToEvict }

/-- What the scan of all requests found. -/
structure InvalidScan (Q : Type) where
  engine : Engine Q
  affectedReqIds : List ReqId := []
  markedInvalidBlockIds : List Nat := []
  totalAffectedTokens : Int := 0
  blocksToEvict : List Nat := []

/-- The tokens of a request that were computed before the step. -/
def numCachedTokens (numScheduledTokens : OrderedMap ReqId Int) (request : Request) : Int :=
  request.numComputedTokens - (numScheduledTokens.get? request.requestId).getD 0

/-- The loop of `_update_requests_with_invalid_blocks` for one request. -/
def scanRequest (invalidBlockIds : List Nat) (numScheduledTokens : OrderedMap ReqId Int)
    (evictBlocks : Bool) (scan : InvalidScan Q) (request : Request) : InvalidScan Q :=
  let (answer, engine) := scan.engine.query (.getBlocks request.requestId)
  let numCached := numCachedTokens numScheduledTokens request
  let numBlocks := cdiv numCached.toNat engine.config.blockSize
  let found := (answer.blockIds.zipIdx.take numBlocks).foldl
    (scanBlock engine.config.blockSize invalidBlockIds evictBlocks numCached answer.blockIds)
    ⟨request.numComputedTokens, false, false, scan.markedInvalidBlockIds,
      scan.totalAffectedTokens, scan.blocksToEvict⟩
  let shared := found.isAffected && !found.markedInvalidBlock
  let numComputed := if shared then numCached else found.numComputedTokens
  { engine := engine.setRequest (request.withComputed numComputed)
    affectedReqIds :=
      if found.isAffected then scan.affectedReqIds ++ [request.requestId]
      else scan.affectedReqIds
    markedInvalidBlockIds := found.markedInvalidBlockIds
    totalAffectedTokens :=
      if shared then found.totalAffectedTokens + (found.numComputedTokens - numCached)
      else found.totalAffectedTokens
    blocksToEvict := found.blocksToEvict }

/-- `_update_requests_with_invalid_blocks` -/
def updateRequestsWithInvalidBlocks (engine : Engine Q) (requests : List Request)
    (invalidBlockIds : List Nat) (numScheduledTokens : OrderedMap ReqId Int)
    (evictBlocks : Bool) : InvalidScan Q :=
  requests.foldl (scanRequest invalidBlockIds numScheduledTokens evictBlocks) { engine := engine }

variable [RequestQueue Q]

/-- `_handle_invalid_blocks`: the ids that the loop over the outputs skips. -/
def handleInvalidBlocks (engine : Engine Q) (invalidBlockIds : List Nat)
    (numScheduledTokens : OrderedMap ReqId Int) : List ReqId × Engine Q :=
  let loading := ((RequestQueue.items engine.skippedWaiting).filterMap engine.requests.get?).filter
    fun request => decide (request.status = .waitingForRemoteKvs)
  let asyncScan :=
    updateRequestsWithInvalidBlocks engine loading invalidBlockIds numScheduledTokens false
  let running := asyncScan.engine.running.filterMap asyncScan.engine.requests.get?
  let syncScan := updateRequestsWithInvalidBlocks asyncScan.engine running invalidBlockIds
    numScheduledTokens true
  let engine := syncScan.engine
  if asyncScan.affectedReqIds = [] ∧ syncScan.affectedReqIds = [] then ([], engine)
  else if engine.config.recomputeKvLoadFailures then
    (syncScan.affectedReqIds, { engine with
      failedRecvingKvReqIds := engine.failedRecvingKvReqIds ∪ asyncScan.affectedReqIds })
  else
    (asyncScan.affectedReqIds ++ syncScan.affectedReqIds,
      if syncScan.blocksToEvict = [] then engine
      else engine.tell (.evictBlocks syncScan.blocksToEvict))

end InvalidBlocks

section Update

variable [RequestQueue Q]

/-- `update_from_output` -/
def updateFromOutput (engine : Engine Q) (output : SchedulerOutput) (result : ModelRunnerOutput) :
    Except EngineError (Engine Q) := do
  let engine :=
    if engine.config.deferBlockFree ∧ 0 < output.totalNumScheduledTokens then
      let engine := { engine with processedStepSeq := engine.processedStepSeq + 1 }
      Engine.drainDeferredFrees engine.deferredFrees engine
    else engine
  let (failed, engine) :=
    if result.invalidBlockIds = [] then ([], engine)
    else handleInvalidBlocks engine result.invalidBlockIds output.numScheduledTokens
  let progress ← updateRequests output result failed output.numScheduledTokens.entries
    { engine := engine }
  let engine := removeStopped progress
  let errorReqIds := engine.grammarCompileErrorReqs ∪
    (if engine.config.recomputeKvLoadFailures then [] else failed)
  let engine ← finishRequests { engine with grammarCompileErrorReqs := [] } errorReqIds .error
  updateFromKvXferFinished engine result

/-- The loop of `reset_prefix_cache`: the running requests are preempted from the last one on. -/
def preemptAll : List ReqId → Engine Q → Except EngineError (Engine Q)
  | [], engine => .ok engine
  | reqId :: rest, engine => do
      let engine := { engine with running := engine.running.dropLast }
      let request ← engine.request reqId
      let engine ← engine.preemptRequest request true
      preemptAll rest engine

/-- `reset_prefix_cache` -/
def resetPrefixCache (engine : Engine Q) (resetRunningRequests resetConnector : Bool) :
    Except EngineError (Engine Q) := do
  let engine ←
    if resetRunningRequests then preemptAll engine.running.reverse engine else .ok engine
  let (answer, engine) := engine.query .resetPrefixCache
  if resetRunningRequests ∧ answer.succeeds = false then .error .resetFailed
  else .ok (if resetConnector then engine.tell .resetConnectorCache else engine)

omit [RequestQueue Q] in
/-- `update_draft_token_ids` for one request. -/
def updateDraftTokenIds (engine : Engine Q) (reqId : ReqId) (specTokenIds : List Int) : Engine Q :=
  match engine.requests.get? reqId with
  | none => engine
  | some request =>
      if request.isFinished then engine
      else if request.isPrefillChunk then engine.setRequest { request with specTokenIds := [] }
      else engine.setRequest { request with specTokenIds := specTokenIds }

omit [RequestQueue Q] in
def setPauseState (engine : Engine Q) (pauseState : PauseState) : Engine Q :=
  { engine with pauseState := pauseState }

/-- `get_num_unfinished_requests` -/
def getNumUnfinishedRequests (engine : Engine Q) : Int :=
  match engine.pauseState with
  | .pausedAll => 0
  | .pausedNew => engine.running.length
  | .unpaused =>
      (RequestQueue.items engine.waiting).length + (RequestQueue.items engine.skippedWaiting).length -
        engine.numWaitingForStreamingInput + engine.running.length

end Update

end KvOffload.EngineOutputs
