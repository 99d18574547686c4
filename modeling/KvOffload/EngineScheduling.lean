import KvOffload.EngineState

/-!
# A step of the engine scheduler

`schedule` gives tokens to the running requests first, preempting where the KV cache manager has
no slots, and then admits waiting ones. The fuel of a loop is the number of requests it can still
visit.
-/

namespace KvOffload.EngineScheduling

open KvOffload KvOffload.Base KvOffload.EngineState

set_option autoImplicit false

/-- `_mamba_block_aligned_split` -/
def mambaBlockAlignedSplit (config : EngineConfig) (request : Request) (numNewTokens : Int)
    (numLocal numExternal : Nat) : Int :=
  let start := request.numComputedTokens + numLocal + numExternal
  let prefillEnd := max (request.numPromptTokens : Int) (request.numTokens - 1)
  if prefillEnd ≤ start then numNewTokens
  else
    let blockSize : Int := config.blockSize
    let lastBlock := request.numTokens - request.numTokens % blockSize
    let lastCachePosition := if config.useEagle then max (lastBlock - blockSize) 0 else lastBlock
    let chunkEnd := start + numNewTokens
    let maxPrefillTokens : Int :=
      if 0 < config.longPrefillTokenThreshold then
        min config.maxNumScheduledTokens config.longPrefillTokenThreshold
      else config.maxNumScheduledTokens
    let alignedEnd := chunkEnd / blockSize * blockSize
    let chunkEnd :=
      if chunkEnd < prefillEnd ∧ (start < alignedEnd ∨ blockSize ≤ maxPrefillTokens) then alignedEnd
      else chunkEnd
    let nextBlockBoundary := (start / blockSize + 1) * blockSize
    let tailBoundary : Int :=
      if config.mambaPartialCacheHit then
        request.numPromptTokens / config.hashBlockSize * config.hashBlockSize
      else 0
    let junction : Int := request.sharedPrefixBoundary
    let stops : List Int :=
      [if start % blockSize ≠ 0 then nextBlockBoundary else 0,
        lastCachePosition,
        if lastCachePosition < tailBoundary ∧ tailBoundary < request.numPromptTokens then
          tailBoundary
        else 0,
        if start < junction ∧ junction < chunkEnd then
          start + (junction - start) / blockSize * blockSize
        else 0]
    let chunkEnd := ((stops.filter fun stop => start < stop ∧ stop < chunkEnd).min?).getD chunkEnd
    max (chunkEnd - start) 0

/-- The local variables of `schedule` that its loops share. -/
structure Pass where
  scheduledNewReqs : List ReqId := []
  scheduledResumedReqs : List ReqId := []
  scheduledRunningReqs : List ReqId := []
  preemptedReqs : List ReqId := []
  newBlocks : OrderedMap ReqId (List Nat) := .empty
  numScheduledTokens : OrderedMap ReqId Int := .empty
  specDecodeTokens : OrderedMap ReqId (List Int) := .empty
  tokenBudget : Int
  inputBudget : Int
  prefillScheduled : Bool := false

namespace Pass

variable (config : EngineConfig) (pass : Pass)

def start (config : EngineConfig) (pauseState : PauseState) : Pass where
  tokenBudget := if pauseState = .pausedAll then 0 else config.maxNumScheduledTokens
  inputBudget := config.maxNumBatchedTokens

/-- The tokens of a request are taken out of both budgets. -/
def charge (reqId : ReqId) (blocks : List Nat) (numNewTokens : Int) : Pass :=
  { pass with
    newBlocks := pass.newBlocks.set reqId blocks
    numScheduledTokens := pass.numScheduledTokens.set reqId numNewTokens
    tokenBudget := pass.tokenBudget - numNewTokens
    inputBudget := pass.inputBudget - (numNewTokens + config.draftSlots) }

/-- The tokens of a scheduled request that is preempted go back to both budgets. -/
def restore (reqId : ReqId) (restored : Int) : Pass :=
  { pass with
    scheduledRunningReqs := pass.scheduledRunningReqs.erase reqId
    newBlocks := pass.newBlocks.erase reqId
    numScheduledTokens := pass.numScheduledTokens.erase reqId
    specDecodeTokens := pass.specDecodeTokens.erase reqId
    tokenBudget := pass.tokenBudget + restored
    inputBudget := pass.inputBudget + (restored + config.draftSlots) }

def withSpecTokens (reqId : ReqId) (tokens : List Int) : Pass :=
  { pass with specDecodeTokens := pass.specDecodeTokens.set reqId tokens }

end Pass

variable {Q : Type}

section Running

variable (engine : Engine Q) (pass : Pass)

/-- Of several requests the first one with the largest priority and arrival time, as `max` finds
it. -/
def leastUrgent : List Request → Option Request
  | [] => none
  | request :: rest =>
      match leastUrgent rest with
      | none => some request
      | some other =>
          if request.priority < other.priority ∨
              request.priority = other.priority ∧ request.arrivalTime < other.arrivalTime then
            some other
          else some request

/-- The request that is preempted. -/
def victim : Option ReqId :=
  match engine.config.policy with
  | .fcfs => engine.running.getLast?
  | .priority =>
      (leastUrgent (engine.running.filterMap engine.requests.get?)).map Request.requestId

/-- The victim leaves the running list, and what it was given goes back. -/
def takeVictim (reqIndex : Nat) (taken : ReqId) : Except EngineError (Engine Q × Pass × Nat) :=
  match engine.config.policy with
  | .fcfs => .ok ({ engine with running := engine.running.dropLast }, pass, reqIndex)
  | .priority =>
      let reqIndex := if engine.running.idxOf taken < reqIndex then reqIndex - 1 else reqIndex
      let engine := { engine with running := engine.running.erase taken }
      if taken ∈ pass.scheduledRunningReqs then
        match pass.numScheduledTokens.get? taken with
        | none => .error .notScheduled
        | some restored => .ok (engine, pass.restore engine.config taken restored, reqIndex)
      else .ok (engine, pass, reqIndex)

/-- The blocks that the request got, if any, after as many preemptions as it takes. -/
def allocateOrPreempt [RequestQueue Q] (reqId : ReqId) (numNewTokens : Int) :
    Nat → Engine Q → Pass → Nat →
      Except EngineError (Option (List Nat) × Engine Q × Pass × Nat)
  | 0, _, _, _ => .error .noneRunning
  | fuel + 1, engine, pass, reqIndex =>
      let (answer, engine) := engine.query
        (.allocateSlots reqId numNewTokens 0 0 engine.config.numLookaheadTokens false false)
      match answer.newBlocks with
      | some blocks => .ok (some blocks, engine, pass, reqIndex)
      | none =>
          match victim engine with
          | none => .error .noneRunning
          | some taken => do
              let (engine, pass, reqIndex) ← takeVictim engine pass reqIndex taken
              let request ← engine.request taken
              let engine ← engine.preemptRequest request engine.config.requiresKvDelivery
              let pass := { pass with preemptedReqs := pass.preemptedReqs ++ [taken] }
              if taken = reqId then .ok (none, engine, pass, reqIndex)
              else allocateOrPreempt reqId numNewTokens fuel engine pass reqIndex

/-- A running request that this step passes over before it counts tokens. -/
def passesOver (deferPrefills : Bool) (request : Request) : Bool :=
  (decide (0 < request.numOutputPlaceholders) &&
    decide ((request.numPromptTokens + request.maxTokens : Int) ≤
      request.numComputedTokens + 2 - request.numOutputPlaceholders)) ||
  decide (engine.currentStep < request.nextDecodeEligibleStep) ||
  (deferPrefills && request.isPrefillChunk)

/-- A prompt that is too long for one step is given the threshold. -/
def withinThreshold (config : EngineConfig) (numNewTokens : Int) : Int :=
  if 0 < config.longPrefillTokenThreshold ∧ config.longPrefillTokenThreshold < numNewTokens then
    config.longPrefillTokenThreshold
  else numNewTokens

def runningTokens (request : Request) : Int :=
  let config := engine.config
  let numNewTokens := withinThreshold config
    (request.numTokensWithSpec + request.numOutputPlaceholders - request.numComputedTokens)
  let numNewTokens := min (min numNewTokens pass.tokenBudget) (pass.inputBudget - config.draftSlots)
  let numNewTokens := min numNewTokens
    (config.maxModelLen - request.numComputedTokens - config.numSampledTokensPerStep)
  if config.needMambaBlockAlignedSplit then mambaBlockAlignedSplit config request numNewTokens 0 0
  else numNewTokens

/-- A running request gets its tokens, the drafted ones among them. -/
def grantRunning (request : Request) (blocks : List Nat) (numNewTokens : Int) : Engine Q × Pass :=
  let pass := (pass.charge engine.config request.requestId blocks numNewTokens)
  let pass := { pass with
    scheduledRunningReqs := pass.scheduledRunningReqs ++ [request.requestId]
    prefillScheduled := pass.prefillScheduled || request.isPrefillChunk }
  if request.specTokenIds = [] then (engine, pass)
  else
    let numSpecTokens := numNewTokens + request.numComputedTokens - request.numTokens -
      request.numOutputPlaceholders
    (engine.setRequest { request with specTokenIds := [] },
      if 0 < numSpecTokens then
        pass.withSpecTokens request.requestId (request.specTokenIds.take numSpecTokens.toNat)
      else pass)

def scheduleRunning [RequestQueue Q] (deferPrefills : Bool) :
    Nat → Engine Q → Pass → Nat → Except EngineError (Engine Q × Pass)
  | 0, engine, pass, _ => .ok (engine, pass)
  | fuel + 1, engine, pass, reqIndex =>
      match engine.running[reqIndex]? with
      | none => .ok (engine, pass)
      | some reqId =>
          if pass.tokenBudget ≤ 0 ∨ pass.inputBudget ≤ engine.config.draftSlots then
            .ok (engine, pass)
          else do
            let request ← engine.request reqId
            let numNewTokens := runningTokens engine pass request
            if passesOver engine deferPrefills request ∨ numNewTokens = 0 then
              scheduleRunning deferPrefills fuel engine pass (reqIndex + 1)
            else
              let (blocks, engine, pass, reqIndex) ←
                allocateOrPreempt reqId numNewTokens engine.running.length engine pass reqIndex
              match blocks with
              | none => .ok (engine, pass)
              | some blocks =>
                  let (engine, pass) := grantRunning engine pass request blocks numNewTokens
                  scheduleRunning deferPrefills fuel engine pass (reqIndex + 1)

end Running

section Waiting

/-- `_update_waiting_for_remote_kv` -/
def updateWaitingForRemoteKv (engine : Engine Q) (request : Request) : Engine Q × Request :=
  let reqId := request.requestId
  let (engine, request) :=
    if reqId ∈ engine.failedRecvingKvReqIds then
      ({ engine.tell (if request.numComputedTokens ≠ 0 then .cacheBlocks reqId request.numComputedTokens
            else .free reqId) with
          failedRecvingKvReqIds := engine.failedRecvingKvReqIds.erase reqId }, request)
    else
      (engine.tell (.cacheBlocks reqId request.numComputedTokens),
        if request.numComputedTokens = request.numTokens then
          request.withComputed (request.numTokens - 1)
        else request)
  ({ engine with finishedRecvingKvReqIds := engine.finishedRecvingKvReqIds.erase reqId }, request)

/-- `_try_promote_blocked_waiting_request`: a blocked request that can go on. -/
def tryPromote (engine : Engine Q) (request : Request) :
    Except EngineError (Option Request × Engine Q) :=
  match request.status with
  | .waitingForRemoteKvs =>
      if request.requestId ∈ engine.finishedRecvingKvReqIds then
        let (engine, request) := updateWaitingForRemoteKv engine request
        let request := request.withStatus
          (if request.numPreemptions ≠ 0 then .preempted else .waiting)
        .ok (some request, engine.setRequest request)
      else .ok (none, engine)
  | .waitingForStructuredOutputGrammar =>
      let (answer, engine) := engine.query (.grammarOf request.requestId)
      match answer.grammar with
      | .pending => .ok (none, engine)
      | .failed => .ok (none, { engine with
          grammarCompileErrorReqs := engine.grammarCompileErrorReqs.insert request.requestId })
      | .ready =>
          let request := request.withStatus .waiting
          .ok (some request, engine.setRequest request)
  | .waitingForStreamingReq =>
      if request.streamingQueue.getD [] = [] then .ok (none, engine) else .error .unfinishedSession
  | _ => .ok (some request, engine)

/-- What is known to be computed of a waiting request, and how much of it is loaded. -/
structure Found where
  numLocalTokens : Nat
  numExternalTokens : Nat
  loadKvAsync : Bool
  numComputedTokens : Int

/-- The tokens in the local cache and those that the connector has; `none` where the connector
does not know yet. -/
def lookUp (engine : Engine Q) (request : Request) :
    Except EngineError (Option Found × Request × Engine Q) :=
  if request.numComputedTokens ≠ 0 then
    .ok (some ⟨0, 0, false, request.numComputedTokens⟩, request, engine)
  else
    let reqId := request.requestId
    let divergent := engine.config.divergentLocalHits
    let (hit, engine) := engine.query
      (if divergent then .getComputedBlocksForConnector reqId else .getComputedBlocks reqId)
    let request := { request with sharedPrefixBoundary := hit.sharedPrefixBoundary }
    let partialTail := hit.numLocalTokens % engine.config.blockSize
    let blockAlignedLocal := hit.numLocalTokens - partialTail
    let (external, engine) := engine.query (.getNumNewMatchedTokens reqId blockAlignedLocal)
    match external.matched with
    | none => .ok (none, request, engine.setRequest request)
    | some extTokens =>
        let (numLocal, numExternal, loadKvAsync, engine) :=
          if partialTail ≠ 0 ∧ partialTail < extTokens then
            (blockAlignedLocal, extTokens, external.loadKvAsync,
              engine.tell (.truncateComputedBlocks reqId blockAlignedLocal))
          else if partialTail ≠ 0 then (hit.numLocalTokens, 0, false, engine)
          else (hit.numLocalTokens, extTokens, external.loadKvAsync, engine)
        let (numLocal, request, engine) :=
          if divergent ∧ hit.hitDiverged ∧ numExternal = 0 then
            let (again, engine) := engine.query (.getComputedBlocks reqId)
            (again.numLocalTokens,
              { request with sharedPrefixBoundary := again.sharedPrefixBoundary }, engine)
          else (numLocal, request, engine)
        if (numLocal + numExternal : Int) ≤ request.numTokens then
          .ok (some ⟨numLocal, numExternal, loadKvAsync, numLocal + numExternal⟩, request,
            engine.setRequest request)
        else .error .answered

/-- A decode that joins a batch of uniform decodes is filled up with drafted tokens. -/
def padsSpecDecode (config : EngineConfig) (pass : Pass) (numNewTokens : Int) : Bool :=
  decide (0 < config.numSpecTokens) && !config.dynamicSpecDecode &&
    decide (0 < config.numSampledTokensPerStep) && decide (numNewTokens = 1) &&
    decide (pass.scheduledRunningReqs ≠ []) && !pass.prefillScheduled

/-- The number of tokens that a waiting request gets and whether they are filled up; `none`
where no further request is admitted in this step. -/
def waitingTokens (config : EngineConfig) (pass : Pass) (deferPrefills : Bool) (request : Request)
    (found : Found) : Except EngineError (Option (Int × Bool)) :=
  if found.loadKvAsync then
    if 0 < found.numExternalTokens then .ok (some (0, false)) else .error .answered
  else if deferPrefills ∧ found.numComputedTokens < request.numTokens - 1 then .ok none
  else
    let requestTokenBudget := min pass.tokenBudget (pass.inputBudget - config.draftSlots)
    let numNewTokens := request.numTokens - found.numComputedTokens
    let pad := padsSpecDecode config pass numNewTokens
    let numNewTokens := if pad then 1 + (config.numSpecTokens : Int) else numNewTokens
    if pad ∧ (requestTokenBudget < numNewTokens ∨
        config.maxModelLen < found.numComputedTokens + numNewTokens) then .ok none
    else
      let numNewTokens := withinThreshold config numNewTokens
      if config.enableChunkedPrefill = false ∧ requestTokenBudget < numNewTokens then .ok none
      else
        let numNewTokens := min numNewTokens requestTokenBudget
        if numNewTokens ≤ 0 then .error .noNewTokens
        else
          let numNewTokens :=
            if config.needMambaBlockAlignedSplit then
              mambaBlockAlignedSplit config request numNewTokens found.numLocalTokens
                found.numExternalTokens
            else numNewTokens
          if config.needMambaBlockAlignedSplit ∧ numNewTokens = 0 then .ok none
          else .ok (some (numNewTokens, pad))

variable [RequestQueue Q]

/-- `_select_waiting_queue_for_scheduling`: whether the skipped queue is served, and its head. -/
def selectWaiting (engine : Engine Q) : Except EngineError (Option (Bool × ReqId)) :=
  match RequestQueue.peek engine.skippedWaiting, RequestQueue.peek engine.waiting with
  | none, none => .ok none
  | none, some waitingReq => .ok (some (false, waitingReq))
  | some skippedReq, none => .ok (some (true, skippedReq))
  | some skippedReq, some waitingReq =>
      match engine.config.policy with
      | .fcfs => .ok (some (true, skippedReq))
      | .priority => do
          let waitingRequest ← engine.request waitingReq
          let skippedRequest ← engine.request skippedReq
          if engine.config.precedes waitingRequest skippedRequest then
            .ok (some (false, waitingReq))
          else .ok (some (true, skippedReq))

def popFrom (engine : Engine Q) (skipped : Bool) : Engine Q :=
  if skipped then { engine with skippedWaiting := RequestQueue.pop engine.skippedWaiting }
  else { engine with waiting := RequestQueue.pop engine.waiting }

/-- How the visit of a waiting request ends: it is skipped, no further one is admitted, it waits
for its load, or it runs. -/
inductive Visit (Q : Type) where
  | skips (engine : Engine Q) (request : Request)
  | stops (engine : Engine Q)
  | loads (engine : Engine Q) (request : Request)
  | runs (engine : Engine Q) (pass : Pass)

/-- A waiting request runs in this step. -/
def grantWaiting (engine : Engine Q) (pass : Pass) (skipped : Bool) (request : Request)
    (found : Found) (numNewTokens : Int) (pad : Bool) : Except EngineError (Visit Q) :=
  let reqId := request.requestId
  let engine := popFrom engine skipped
  let engine := { engine with running := engine.running ++ [reqId] }
  let (answer, engine) := engine.query (.getBlocks reqId)
  let engine := engine.setRequest
    ((request.withStatus .running).withComputed found.numComputedTokens)
  let charged := pass.charge engine.config reqId answer.blockIds numNewTokens
  let charged :=
    if pad then charged.withSpecTokens reqId (List.replicate engine.config.numSpecTokens (-1))
    else charged
  match request.status with
  | .waiting =>
      .ok (.runs engine { charged with scheduledNewReqs := charged.scheduledNewReqs ++ [reqId] })
  | .preempted =>
      .ok (.runs engine
        { charged with scheduledResumedReqs := charged.scheduledResumedReqs ++ [reqId] })
  | _ => .error .invalidStatus

/-- A waiting request for which slots are wanted. -/
def admitWaiting (engine : Engine Q) (pass : Pass) (skipped : Bool) (request : Request)
    (found : Found) (numNewTokens : Int) (pad : Bool) : Except EngineError (Visit Q) :=
  let config := engine.config
  let reqId := request.requestId
  let (escapes, engine) :=
    if config.escapeRelaxFullFit ∧ found.loadKvAsync = false then
      let (answer, engine) := engine.query (.isStaleHitEscape reqId)
      (answer.succeeds, engine)
    else (false, engine)
  let (answer, engine) := engine.query (.allocateSlots reqId numNewTokens found.numLocalTokens
    found.numExternalTokens (if found.loadKvAsync then 0 else config.numLookaheadTokens)
    found.loadKvAsync (config.reserveFullIsl && !escapes))
  match answer.newBlocks with
  | none => .ok (.stops engine)
  | some _ =>
      let engine := engine.tell (.updateStateAfterAlloc reqId found.numExternalTokens)
      if found.loadKvAsync then
        let request :=
          (request.withStatus .waitingForRemoteKvs).withComputed found.numComputedTokens
        .ok (.loads ((popFrom engine skipped).setRequest request) request)
      else grantWaiting engine pass skipped request found numNewTokens pad

def visitWaiting (deferPrefills : Bool) (engine : Engine Q) (pass : Pass) (skipped : Bool)
    (reqId : ReqId) : Except EngineError (Visit Q) := do
  let request ← engine.request reqId
  match ← tryPromote engine request with
  | (none, engine) => .ok (.skips (popFrom engine skipped) request)
  | (some request, engine) =>
      if 0 < request.numStaleOutputTokens ∧ request.dropStaleOutput = false then
        .ok (.skips (popFrom engine skipped) request)
      else
        match ← lookUp engine request with
        | (none, request, engine) => .ok (.skips (popFrom engine skipped) request)
        | (some found, request, engine) =>
            match ← waitingTokens engine.config pass deferPrefills request found with
            | none => .ok (.stops engine)
            | some (numNewTokens, pad) =>
                admitWaiting engine pass skipped request found numNewTokens pad

/-- The waiting requests are visited until one stops the step; the skipped ones are kept apart. -/
def scheduleWaiting (deferPrefills : Bool) :
    Nat → Engine Q → Pass → Q → Except EngineError (Engine Q × Pass × Q)
  | 0, engine, pass, stepSkipped => .ok (engine, pass, stepSkipped)
  | fuel + 1, engine, pass, stepSkipped => do
      match ← selectWaiting engine with
      | none => .ok (engine, pass, stepSkipped)
      | some (skipped, reqId) =>
          if pass.tokenBudget ≤ 0 ∨ pass.inputBudget ≤ engine.config.draftSlots ∨
              (engine.config.maxNumRunningReqs : Int) ≤
                engine.running.length + engine.numWaitingForStreamingInput then
            .ok (engine, pass, stepSkipped)
          else
            match ← visitWaiting deferPrefills engine pass skipped reqId with
            | .skips engine request =>
                scheduleWaiting deferPrefills fuel engine pass
                  (RequestQueue.prepend stepSkipped request)
            | .stops engine => .ok (engine, pass, stepSkipped)
            | .loads engine request =>
                scheduleWaiting deferPrefills fuel engine pass
                  (RequestQueue.prepend stepSkipped request)
            | .runs engine pass => scheduleWaiting deferPrefills fuel engine pass stepSkipped

end Waiting

section Step

variable [RequestQueue Q]

/-- Waiting requests are admitted where nothing was preempted and the engine is not paused. -/
def admitRequests (engine : Engine Q) (pass : Pass) (deferPrefills : Bool) :
    Except EngineError (Engine Q × Pass) :=
  if pass.preemptedReqs = [] ∧ engine.pauseState = .unpaused then do
    let numWaiting := (RequestQueue.items engine.waiting).length +
      (RequestQueue.items engine.skippedWaiting).length
    let (engine, pass, stepSkipped) ←
      scheduleWaiting deferPrefills numWaiting engine pass RequestQueue.empty
    let engine :=
      if RequestQueue.items stepSkipped = [] then engine
      else { engine with
        skippedWaiting := RequestQueue.prependAll engine.skippedWaiting stepSkipped }
    let engine :=
      if deferPrefills then engine
      else { engine with
        prefillCapacityBound := decide (RequestQueue.items engine.waiting ≠ []) }
    .ok (engine, pass)
  else .ok (engine, pass)

/-- The assertions at the end of `schedule`. -/
def WithinLimits (engine : Engine Q) (pass : Pass) : Prop :=
  (pass.numScheduledTokens.entries.map Prod.snd).sum ≤ engine.config.maxNumScheduledTokens ∧
    0 ≤ pass.tokenBudget ∧ 0 ≤ pass.inputBudget ∧
    engine.running.length ≤ engine.config.maxNumRunningReqs ∧
    pass.scheduledNewReqs.length + pass.scheduledResumedReqs.length +
      pass.scheduledRunningReqs.length ≤ engine.running.length

omit [RequestQueue Q] in
instance (engine : Engine Q) (pass : Pass) : Decidable (WithinLimits engine pass) :=
  inferInstanceAs (Decidable (_ ∧ _))

omit [RequestQueue Q] in
/-- The numbers of a scheduled request after the step. -/
def advance (engine : Engine Q) (request : Request) (numScheduledTokens : Int) : Request :=
  let numComputedTokens := request.numComputedTokens + numScheduledTokens
  { request with
    numComputedTokens := numComputedTokens
    numInFlightTokens := request.numInFlightTokens + numScheduledTokens
    lastSchedSeq := if engine.config.deferBlockFree then engine.schedStepSeq else request.lastSchedSeq
    isPrefillChunk := decide (numComputedTokens < request.numTokens + request.numOutputPlaceholders) }

omit [RequestQueue Q] in
/-- `_update_after_schedule` -/
def updateAfterSchedule (engine : Engine Q) : List (ReqId × Int) → Except EngineError (Engine Q)
  | [] => .ok { engine with finishedReqIds := [], resetPreemptedReqIds := [] }
  | (reqId, numScheduledTokens) :: rest => do
      let request ← engine.request reqId
      updateAfterSchedule (engine.setRequest (advance engine request numScheduledTokens)) rest

omit [RequestQueue Q] in
def outputOf (engine : Engine Q) (pass : Pass) : SchedulerOutput where
  scheduledNewReqs := pass.scheduledNewReqs
  scheduledResumedReqs := pass.scheduledResumedReqs
  scheduledRunningReqs := pass.scheduledRunningReqs
  numScheduledTokens := pass.numScheduledTokens
  scheduledSpecDecodeTokens := pass.specDecodeTokens
  newBlocks := pass.newBlocks
  preemptedReqIds := engine.resetPreemptedReqIds
  finishedReqIds := engine.finishedReqIds

omit [RequestQueue Q] in
/-- Blocks that were copied on write are held back, the connector is told of the step, and the
requests advance. -/
def closeStep (engine : Engine Q) (pass : Pass) : Except EngineError (SchedulerOutput × Engine Q) :=
  do
  let (copies, engine) := engine.query .takeBlockCopies
  let engine :=
    if copies.blockIds = [] then engine
    else engine.freeCowRetainedBlocks copies.blockIds (engine.schedStepSeq + 1)
  let output := outputOf engine pass
  let engine := engine.tell (.buildConnectorMeta output)
  let engine :=
    if engine.config.deferBlockFree ∧ 0 < output.totalNumScheduledTokens then
      { engine with schedStepSeq := engine.schedStepSeq + 1 }
    else engine
  let engine ← updateAfterSchedule engine output.numScheduledTokens.entries
  .ok (output, engine)

def schedule (engine : Engine Q) (throttlePrefills : Bool) :
    Except EngineError (SchedulerOutput × Engine Q) := do
  let engine := { engine with currentStep := engine.currentStep + 1 }
  let decodes := engine.running.any fun reqId =>
    (engine.requests.get? reqId).any fun request => !request.isPrefillChunk
  let deferPrefills := throttlePrefills && !engine.prefillCapacityBound && decodes
  let (engine, pass) ← scheduleRunning deferPrefills engine.running.length engine
    (.start engine.config engine.pauseState) 0
  let (engine, pass) ← admitRequests engine pass deferPrefills
  if WithinLimits engine pass then closeStep engine pass else .error .limits

end Step

end KvOffload.EngineScheduling
