import KvOffload.CpuManager
import Mathlib.Data.Finset.Insert

/-!
# Tiering offloading manager

A CPU primary tier in front of secondary tiers. The secondary tiers and the
monotonic clock are outside the repository: what they answer is a stream that
the manager reads one entry at a time, so a statement over all streams covers
every tier and every clock. Calls into the tiers are logged. Metrics are left
out, and times are rational numbers.

The reservation ledger is not part of the program and no operation reads it: it
numbers the write reservations of the primary tier and records which of them
were filled by their own transfer.
-/

namespace KvOffload.Tiering

open KvOffload KvOffload.Base KvOffload.PolicyInterface KvOffload.CpuManager

set_option autoImplicit false

/-- `reservations` has one ledger number for each key. -/
structure TransferJob where
  jobId : JobId
  keys : List OffloadKey
  blockIds : List Nat
  isPromotion : Bool
  reqContext : ReqContext
  reservations : List Nat

structure JobMetadata where
  transferJob : TransferJob
  tierIdx : Nat

structure JobResult where
  jobId : JobId
  success : Bool
  successfulKeys : List OffloadKey := []

structure PendingPromotion where
  reqContext : ReqContext
  keys : List OffloadKey
  blockIds : List Nat
  reservations : List Nat

structure RequestState where
  reqContext : ReqContext
  pendingPrimaryStores : Nat := 0
  isFinished : Bool := false
  requestLevelTiers : List Nat := []

/-- What a secondary tier may call on its `ParentManager`. -/
inductive ParentCall where
  | onNewRequest (reqContext : ReqContext)
  | lookup (key : OffloadKey) (reqContext : ReqContext)
  | createStoreJob (keys : List OffloadKey) (reqContext : ReqContext)
  | onRequestFinished (reqContext : ReqContext)

/-- One entry of the stream of answers: the clock and what a tier returns. -/
structure TierAnswer where
  now : Rat := 0
  lookup : LookupResult := .miss
  finished : List JobResult := []
  policy : OffloadPolicy := .blockLevel
  served : List ParentCall := []

inductive TierCall where
  | submitLoad (job : TransferJob)
  | submitStore (job : TransferJob)
  | touch (keys : List OffloadKey)
  | onRequestFinished (reqContext : ReqContext)
  | onScheduleEnd (context : ScheduleEndContext)
  | drainJobs

structure TierInfo where
  medium : Option Medium := none
  locality : Option Locality := none

/-- `current` is the number of the last reservation made for a key. -/
structure ReservationLedger where
  next : Nat := 0
  current : OrderedMap OffloadKey Nat := OrderedMap.empty
  filled : List Nat := []

namespace ReservationLedger

def numbers (ledger : ReservationLedger) (keys : List OffloadKey) : List Nat :=
  List.range' ledger.next keys.length

def reserve (ledger : ReservationLedger) (keys : List OffloadKey) : ReservationLedger :=
  { ledger with
    next := ledger.next + keys.length
    current := (keys.zip (ledger.numbers keys)).foldl
      (fun current entry => current.set entry.1 entry.2) ledger.current }

def fill (ledger : ReservationLedger) (numbers : List Nat) : ReservationLedger :=
  { ledger with filled := numbers ++ ledger.filled }

end ReservationLedger

structure TieringOffloadingManager (P : Type) where
  primaryTier : CPUOffloadingManager P
  secondaryTiers : List TierInfo
  answers : Nat → TierAnswer
  answered : Nat
  tierCalls : List (Nat × TierCall)
  ledger : ReservationLedger
  jobIdCounter : Nat
  jobs : OrderedMap JobId JobMetadata
  pendingLoadSubmissions : OrderedMap Nat (OrderedMap ReqId PendingPromotion)
  processedJobsThisStep : Bool
  promotionTtlSecs : Rat
  promotionFailTtlSecs : Rat
  jobStartedAt : OrderedMap JobId Rat
  promotionFailures : OrderedMap OffloadKey Rat
  retractedJobIds : Finset JobId
  drainedRetractedJobIds : OrderedMap JobId Rat
  storePendingTtlSecs : Rat
  storePendingDeadline : OrderedMap OffloadKey Rat
  storePendingOwner : OrderedMap OffloadKey (ReqContext × JobId)
  storePendingRetractedTotal : Nat
  reqState : OrderedMap ReqId RequestState

/-- The settings the constructor reads from the environment. -/
structure TieringParams where
  promotionTtlSecs : Rat := 30
  promotionFailTtlSecs : Rat := 10
  storePendingTtlSecs : Rat := 30

variable {P : Type}

namespace TieringOffloadingManager

def new (params : TieringParams) (primaryTier : CPUOffloadingManager P)
    (secondaryTiers : List TierInfo) (answers : Nat → TierAnswer) :
    TieringOffloadingManager P where
  primaryTier := primaryTier
  secondaryTiers := secondaryTiers
  answers := answers
  answered := 0
  tierCalls := []
  ledger := {}
  jobIdCounter := 0
  jobs := OrderedMap.empty
  pendingLoadSubmissions := OrderedMap.empty
  processedJobsThisStep := false
  promotionTtlSecs := params.promotionTtlSecs
  promotionFailTtlSecs := params.promotionFailTtlSecs
  jobStartedAt := OrderedMap.empty
  promotionFailures := OrderedMap.empty
  retractedJobIds := ∅
  drainedRetractedJobIds := OrderedMap.empty
  storePendingTtlSecs := params.storePendingTtlSecs
  storePendingDeadline := OrderedMap.empty
  storePendingOwner := OrderedMap.empty
  storePendingRetractedTotal := 0
  reqState := OrderedMap.empty

variable (manager : TieringOffloadingManager P)

def answer : TierAnswer := manager.answers manager.answered

/-- The answer at hand has been read. -/
def next : TieringOffloadingManager P := { manager with answered := manager.answered + 1 }

def call (tierIdx : Nat) (tierCall : TierCall) : TieringOffloadingManager P :=
  { manager with tierCalls := manager.tierCalls ++ [(tierIdx, tierCall)] }

def callAll (tierCall : TierCall) : TieringOffloadingManager P :=
  (List.range manager.secondaryTiers.length).foldl
    (fun manager tierIdx => manager.call tierIdx tierCall) manager

def withPrimary (primaryTier : CPUOffloadingManager P) : TieringOffloadingManager P :=
  { manager with primaryTier := primaryTier }

def fillLedger (numbers : List Nat) : TieringOffloadingManager P :=
  { manager with ledger := manager.ledger.fill numbers }

def setProcessed (processed : Bool) : TieringOffloadingManager P :=
  { manager with processedJobsThisStep := processed }

def addRetracted (jobId : JobId) : TieringOffloadingManager P :=
  { manager with retractedJobIds := insert jobId manager.retractedJobIds }

def withStorePends (deadlines : OrderedMap OffloadKey Rat)
    (owners : OrderedMap OffloadKey (ReqContext × JobId)) : TieringOffloadingManager P :=
  { manager with storePendingDeadline := deadlines, storePendingOwner := owners }

def countRetracted : TieringOffloadingManager P :=
  { manager with storePendingRetractedTotal := manager.storePendingRetractedTotal + 1 }

def setRequest (reqId : ReqId) (state : RequestState) : TieringOffloadingManager P :=
  { manager with reqState := manager.reqState.set reqId state }

/-- The id is the counter before the call. -/
def nextJobId : TieringOffloadingManager P :=
  { manager with jobIdCounter := manager.jobIdCounter + 1 }

def registerJob (job : TransferJob) (tierIdx : Nat) : TieringOffloadingManager P :=
  { manager.next with
    jobs := manager.jobs.set job.jobId ⟨job, tierIdx⟩
    jobStartedAt := manager.jobStartedAt.set job.jobId manager.answer.now }

def popJob (jobId : JobId) : TieringOffloadingManager P :=
  { manager with
    jobs := manager.jobs.erase jobId
    jobStartedAt := manager.jobStartedAt.erase jobId }

def suppressPromotionFailures (keys : List OffloadKey) : TieringOffloadingManager P :=
  if manager.promotionFailTtlSecs ≤ 0 then manager
  else
    { manager.next with
      promotionFailures := keys.foldl
        (fun failures key =>
          failures.set key (manager.answer.now + manager.promotionFailTtlSecs))
        manager.promotionFailures }

def forgetPromotionFailures (keys : List OffloadKey) : TieringOffloadingManager P :=
  { manager with
    promotionFailures := keys.foldl (fun failures key => failures.erase key)
      manager.promotionFailures }

/-- The keys a finished promotion stored and the keys it failed to store. -/
def promotionSplit (job : TransferJob) (result : JobResult) :
    Except PyError (List OffloadKey × List OffloadKey) :=
  if result.success then .ok (job.keys, [])
  else if result.successfulKeys = [] then .ok ([], job.keys)
  else do
    pyAssert (∀ key ∈ result.successfulKeys, key ∈ job.keys)
    .ok (result.successfulKeys, job.keys.filter fun key => key ∉ result.successfulKeys)

/-- Ledger numbers of the given keys of a transfer. -/
def reservationsOf (job : TransferJob) (keys : List OffloadKey) : List Nat :=
  ((job.keys.zip job.reservations).filter fun entry => entry.1 ∈ keys).map Prod.snd

variable [CachePolicy P]

def completeWrite (keys : List OffloadKey) (success : Bool) :
    Except PyError (TieringOffloadingManager P) := do
  let primaryTier ← manager.primaryTier.completeStore keys success
  .ok (manager.withPrimary primaryTier)

/-- Completing an empty list of keys changes nothing, so the guards on the two
lists are only kept where the clock is read. -/
def completePromotion (job : TransferJob) (result : JobResult) :
    Except PyError (TieringOffloadingManager P) := do
  let (successfulKeys, failedKeys) ← promotionSplit job result
  let manager ← manager.completeWrite successfulKeys true
  let manager ← manager.completeWrite failedKeys false
  let manager := (manager.forgetPromotionFailures successfulKeys).fillLedger
    (reservationsOf job successfulKeys)
  if failedKeys = [] then .ok manager
  else .ok (manager.suppressPromotionFailures failedKeys)

/-- The transfer job of a popped id, checked against the reporting tier. -/
def finishJob (tierIdx : Nat) (job : JobMetadata) (result : JobResult) :
    Except PyError (TieringOffloadingManager P) := do
  pyAssert (job.tierIdx = tierIdx)
  if job.transferJob.isPromotion then manager.completePromotion job.transferJob result
  else do
    let primaryTier ← manager.primaryTier.completeLoad job.transferJob.keys
    .ok (manager.withPrimary primaryTier)

def consumeResult (tierIdx : Nat) (result : JobResult) :
    Except PyError (TieringOffloadingManager P) :=
  if result.jobId ∈ manager.retractedJobIds ∨
      manager.drainedRetractedJobIds.contains result.jobId then
    .ok { manager with
      retractedJobIds := manager.retractedJobIds.erase result.jobId
      drainedRetractedJobIds := manager.drainedRetractedJobIds.erase result.jobId }
  else
    match manager.jobs.get? result.jobId with
    | none => .error .assertionError
    | some job => (manager.popJob result.jobId).finishJob tierIdx job result

def consumeResults (manager : TieringOffloadingManager P) (tierIdx : Nat) :
    List JobResult → Except PyError (TieringOffloadingManager P)
  | [] => .ok manager
  | result :: rest => do
      let manager ← manager.consumeResult tierIdx result
      consumeResults manager tierIdx rest

def pollTiers (manager : TieringOffloadingManager P) :
    List Nat → Except PyError (TieringOffloadingManager P)
  | [] => .ok manager
  | tierIdx :: rest => do
      let manager ← manager.next.consumeResults tierIdx manager.answer.finished
      pollTiers manager rest

def promotionExpired (now : Rat) (jobId : JobId) (job : JobMetadata) : Bool :=
  job.transferJob.isPromotion && match manager.jobStartedAt.get? jobId with
    | none => false
    | some started => manager.promotionTtlSecs < now - started

def retractPromotion (jobId : JobId) : Except PyError (TieringOffloadingManager P) := do
  let retracted := (manager.popJob jobId).addRetracted jobId
  match manager.jobs.get? jobId with
  | none => .ok retracted
  | some job => do
      let retracted ← retracted.completeWrite job.transferJob.keys false
      .ok (retracted.suppressPromotionFailures job.transferJob.keys)

def retractPromotions (manager : TieringOffloadingManager P) :
    List JobId → Except PyError (TieringOffloadingManager P)
  | [] => .ok manager
  | jobId :: rest => do
      let manager ← manager.retractPromotion jobId
      retractPromotions manager rest

def expireStalePromotions : Except PyError (TieringOffloadingManager P) :=
  if manager.promotionTtlSecs ≤ 0 then .ok manager
  else
    let now := manager.answer.now
    let expired := manager.jobs.entries.filter fun entry =>
      manager.promotionExpired now entry.1 entry.2
    manager.next.retractPromotions (expired.map Prod.fst)

omit [CachePolicy P] in
/-- One expired key leaves both maps and joins the group of its store batch. -/
def disarmExpired (state : TieringOffloadingManager P × OrderedMap JobId (List OffloadKey))
    (key : OffloadKey) : TieringOffloadingManager P × OrderedMap JobId (List OffloadKey) :=
  let (manager, groups) := state
  let disarmed := manager.withStorePends (manager.storePendingDeadline.erase key)
    (manager.storePendingOwner.erase key)
  match manager.storePendingOwner.get? key with
  | none => (disarmed, groups)
  | some (_, batchJobId) =>
      (disarmed, groups.set batchJobId ((groups.get? batchJobId).getD [] ++ [key]))

def retractStorePends (manager : TieringOffloadingManager P) :
    List (JobId × List OffloadKey) → Except PyError (TieringOffloadingManager P)
  | [] => .ok manager
  | (batchJobId, keys) :: rest => do
      let retracted ← (manager.addRetracted batchJobId).completeWrite keys false
      retractStorePends retracted.countRetracted rest

omit [CachePolicy P] in
def expiredStorePends (now : Rat) : List OffloadKey :=
  (manager.storePendingDeadline.entries.filter fun entry => entry.2 < now).map Prod.fst

def expireStaleStorePends : Except PyError (TieringOffloadingManager P) :=
  if manager.storePendingTtlSecs ≤ 0 then .ok manager
  else
    let expired := manager.expiredStorePends manager.answer.now
    let (manager, groups) := expired.foldl disarmExpired (manager.next, OrderedMap.empty)
    manager.retractStorePends groups.entries

def processFinishedJobs : Except PyError (TieringOffloadingManager P) := do
  let manager ← manager.pollTiers (List.range manager.secondaryTiers.length)
  let manager ← manager.expireStalePromotions
  manager.expireStaleStorePends

def maybeProcessFinishedJobs : Except PyError (TieringOffloadingManager P) :=
  if manager.processedJobsThisStep then .ok manager
  else (manager.setProcessed true).processFinishedJobs

omit [CachePolicy P] in
/-- Retracted ids go to the connector once and are tolerated for a while longer. -/
def drainFlushJobIds : Finset JobId × TieringOffloadingManager P :=
  let retracted := manager.retractedJobIds
  let deadline := manager.answer.now + 600
  let retained :=
    if retracted = ∅ then manager.drainedRetractedJobIds
    else (retracted.sort (· ≤ ·)).foldl (fun drained jobId => drained.set jobId deadline)
      manager.drainedRetractedJobIds
  let now := manager.next.answer.now
  let overdue := (retained.entries.filter fun entry => entry.2 < now).map Prod.fst
  (retracted, { manager.next.next with
    retractedJobIds := ∅
    drainedRetractedJobIds := overdue.foldl (fun drained jobId => drained.erase jobId) retained })

omit [CachePolicy P] in
/-- A key joins the batch of its tier and request. -/
def queuePromotion (tierIdx : Nat) (reqContext : ReqContext) (output : PrepareStoreOutput) :
    TieringOffloadingManager P :=
  let tierPending :=
    (manager.pendingLoadSubmissions.get? tierIdx).getD OrderedMap.empty
  let entry := (tierPending.get? reqContext.reqId).getD ⟨reqContext, [], [], []⟩
  let entry := { entry with
    keys := entry.keys ++ output.keysToStore
    blockIds := entry.blockIds ++ output.storeSpec
    reservations := entry.reservations ++ manager.ledger.numbers output.keysToStore }
  { manager with
    ledger := manager.ledger.reserve output.keysToStore
    pendingLoadSubmissions := manager.pendingLoadSubmissions.set tierIdx
      (tierPending.set reqContext.reqId entry) }

def initiatePromotion (tierIdx : Nat) (key : OffloadKey) (reqContext : ReqContext) :
    Except PyError (Bool × TieringOffloadingManager P) := do
  match ← manager.primaryTier.prepareStore [key] false with
  | (none, primaryTier) => .ok (false, manager.withPrimary primaryTier)
  | (some output, primaryTier) =>
      .ok (true, (manager.withPrimary primaryTier).queuePromotion tierIdx reqContext output)

omit [CachePolicy P] in
/-- A tier's hit on a key whose promotion failed recently counts as a miss; an
expired entry of the negative cache goes. -/
def filterTierHit (key : OffloadKey) (startTime : Rat) :
    LookupResult → LookupResult × TieringOffloadingManager P
  | .hit =>
      match manager.promotionFailures.get? key with
      | none => (.hit, manager)
      | some expiry =>
          if startTime < expiry then (.miss, manager)
          else (.hit, { manager with
            promotionFailures := manager.promotionFailures.erase key })
  | result => (result, manager)

/-- The scan of the secondary tiers after a miss in the primary tier. -/
def lookupTiers (manager : TieringOffloadingManager P) (key : OffloadKey)
    (reqContext : ReqContext) (excludeTierIdx : Option Nat) (anyRetry : Bool) :
    List (Nat × TierInfo) → Except PyError (LookupResult × TieringOffloadingManager P)
  | [] => .ok (if anyRetry then .retry else .miss, manager)
  | (tierIdx, tier) :: rest =>
      if excludeTierIdx = some tierIdx ∨
          ¬reqContext.loadTierFilter.allows tier.medium tier.locality then
        lookupTiers manager key reqContext excludeTierIdx anyRetry rest
      else
        match manager.next.filterTierHit key manager.answer.now manager.answer.lookup with
        | (.hit, manager) => do
            let (promoted, manager) ← manager.initiatePromotion tierIdx key reqContext
            .ok (if promoted then .hitPending else .miss, manager)
        | (result, manager) =>
            lookupTiers manager key reqContext excludeTierIdx
              (anyRetry || result = .retry) rest

def lookup (key : OffloadKey) (reqContext : ReqContext) (excludeTierIdx : Option Nat := none) :
    Except PyError (LookupResult × TieringOffloadingManager P) := do
  let manager ← manager.maybeProcessFinishedJobs
  let (primaryHit, primaryTier) ← manager.primaryTier.lookup key
  let manager := manager.withPrimary primaryTier
  match primaryHit with
  | .hit => .ok (.hit, manager)
  | .hitPending => .ok (.hitPending, manager)
  | _ =>
      let tiers := (List.range manager.secondaryTiers.length).zip manager.secondaryTiers
      manager.lookupTiers key reqContext excludeTierIdx false tiers

omit [CachePolicy P] in
def submitPromotion (tierIdx : Nat) (entry : PendingPromotion) :
    TieringOffloadingManager P :=
  let job : TransferJob :=
    { jobId := manager.jobIdCounter
      keys := entry.keys
      blockIds := entry.blockIds
      isPromotion := true
      reqContext := entry.reqContext
      reservations := entry.reservations }
  (manager.nextJobId.registerJob job tierIdx).call tierIdx (.submitLoad job)

omit [CachePolicy P] in
/-- The queued batches with their tiers, in submission order. -/
def queuedPromotions : List (Nat × PendingPromotion) :=
  manager.pendingLoadSubmissions.entries.flatMap fun tier =>
    tier.2.values.map fun entry => (tier.1, entry)

omit [CachePolicy P] in
def flushPendingPromotions : TieringOffloadingManager P :=
  { manager.queuedPromotions.foldl
      (fun manager queued => manager.submitPromotion queued.1 queued.2) manager with
    pendingLoadSubmissions := OrderedMap.empty }

def prepareLoad (keys : List OffloadKey) :
    Except PyError (List Nat × TieringOffloadingManager P) := do
  let (blockIds, primaryTier) ← manager.primaryTier.prepareLoad keys
  .ok (blockIds, manager.withPrimary primaryTier)

def touch (keys : List OffloadKey) : TieringOffloadingManager P :=
  (manager.withPrimary (manager.primaryTier.touch keys)).callAll (.touch keys)

def completeLoad (keys : List OffloadKey) : Except PyError (TieringOffloadingManager P) := do
  let primaryTier ← manager.primaryTier.completeLoad keys
  .ok (manager.withPrimary primaryTier)

/-- Pins the keys for the tier's read; the transfer itself is the caller's. -/
def createStoreJob (keys : List OffloadKey) (reqContext : ReqContext) (tierIdx : Nat) :
    Except PyError (TransferJob × TieringOffloadingManager P) := do
  let (blockIds, primaryTier) ← manager.primaryTier.prepareLoad keys
  let job : TransferJob :=
    { jobId := manager.jobIdCounter
      keys := keys
      blockIds := blockIds
      isPromotion := false
      reqContext := reqContext
      reservations := [] }
  .ok (job, (manager.withPrimary primaryTier).nextJobId.registerJob job tierIdx)

def cascade (manager : TieringOffloadingManager P) (keys : List OffloadKey)
    (reqContext : ReqContext) : List Nat → Except PyError (TieringOffloadingManager P)
  | [] => .ok manager
  | tierIdx :: rest => do
      let (job, manager) ← manager.createStoreJob keys reqContext tierIdx
      cascade (manager.call tierIdx (.submitStore job)) keys reqContext rest

/-- The keys of a list that are ready in the primary tier. -/
def readyKeys (manager : TieringOffloadingManager P) :
    List OffloadKey → Except PyError (List OffloadKey × TieringOffloadingManager P)
  | [] => .ok ([], manager)
  | key :: rest => do
      let (result, primaryTier) ← manager.primaryTier.lookup key
      let (ready, manager) ← readyKeys (manager.withPrimary primaryTier) rest
      .ok (if result = .hit then key :: ready else ready, manager)

def cascadeExistingBlocksToRequestLevelTiers (keys : List OffloadKey) (reqContext : ReqContext)
    (requestLevelTiers : List Nat) : Except PyError (TieringOffloadingManager P) := do
  let (ready, manager) ← manager.readyKeys keys
  if ready = [] then .ok manager
  else manager.cascade ready reqContext requestLevelTiers

omit [CachePolicy P] in
/-- Counts the store and arms the retraction deadline of its new keys. -/
def armStorePends (reqContext : ReqContext) (state : RequestState) (keys : List OffloadKey) :
    TieringOffloadingManager P :=
  let counted := { manager.setRequest reqContext.reqId
      { state with pendingPrimaryStores := state.pendingPrimaryStores + 1 } with
    ledger := manager.ledger.reserve keys }
  if manager.storePendingTtlSecs ≤ 0 then counted
  else
    let deadline := manager.answer.now + manager.storePendingTtlSecs
    counted.next.nextJobId.withStorePends
      (keys.foldl (fun deadlines key => deadlines.set key deadline)
        manager.storePendingDeadline)
      (keys.foldl (fun owners key => owners.set key (reqContext, manager.jobIdCounter))
        manager.storePendingOwner)

def prepareStore (keys : List OffloadKey) (reqContext : ReqContext) :
    Except PyError (Option PrepareStoreOutput × TieringOffloadingManager P) := do
  let manager ← manager.maybeProcessFinishedJobs
  match ← manager.primaryTier.prepareStore keys false with
  | (none, primaryTier) => .ok (none, manager.withPrimary primaryTier)
  | (some output, primaryTier) => do
      let manager := manager.withPrimary primaryTier
      let state ← pyItem .requestState (manager.reqState.get? reqContext.reqId)
      let manager :=
        if output.keysToStore = [] then manager
        else manager.armStorePends reqContext state output.keysToStore
      let alreadyStored := keys.filter fun key => key ∉ output.keysToStore
      if state.requestLevelTiers = [] ∨ alreadyStored = [] then .ok (some output, manager)
      else do
        let manager ← manager.cascadeExistingBlocksToRequestLevelTiers alreadyStored
          reqContext state.requestLevelTiers
        .ok (some output, manager)

omit [CachePolicy P] in
def disarmStorePends (keys : List OffloadKey) : TieringOffloadingManager P :=
  manager.withStorePends
    (keys.foldl (fun deadlines key => deadlines.erase key) manager.storePendingDeadline)
    (keys.foldl
      (fun owners key =>
        if manager.storePendingDeadline.contains key then owners.erase key else owners)
      manager.storePendingOwner)

omit [CachePolicy P] in
def forwardRequestFinished (reqContext : ReqContext) (excludeTierIdx : Option Nat) :
    TieringOffloadingManager P :=
  (List.range manager.secondaryTiers.length).foldl
    (fun manager tierIdx =>
      if excludeTierIdx = some tierIdx then manager
      else manager.call tierIdx (.onRequestFinished reqContext)) manager

omit [CachePolicy P] in
def maybeFinalizeRequest (reqId : ReqId) (excludeTierIdx : Option Nat) :
    Except PyError (TieringOffloadingManager P) := do
  let state ← pyItem .requestState (manager.reqState.get? reqId)
  if state.isFinished = false ∨ state.pendingPrimaryStores ≠ 0 then .ok manager
  else
    .ok { manager.forwardRequestFinished state.reqContext excludeTierIdx with
      reqState := manager.reqState.erase reqId }

omit [CachePolicy P] in
/-- The request accounting at the end of `complete_store`. -/
def settleRequest (reqId : ReqId) : Except PyError (TieringOffloadingManager P) := do
  let state ← pyItem .requestState (manager.reqState.get? reqId)
  pyAssert (0 < state.pendingPrimaryStores)
  let manager := manager.setRequest reqId
    { state with pendingPrimaryStores := state.pendingPrimaryStores - 1 }
  manager.maybeFinalizeRequest reqId none

def completeStore (keys : List OffloadKey) (reqContext : ReqContext) (success : Bool) :
    Except PyError (TieringOffloadingManager P) := do
  let manager ← manager.completeWrite keys success
  let manager := manager.disarmStorePends keys
  if success then do
    let manager ← manager.cascade keys reqContext (List.range manager.secondaryTiers.length)
    manager.settleRequest reqContext.reqId
  else manager.settleRequest reqContext.reqId

omit [CachePolicy P] in
/-- The tiers that want the request's blocks at request level. -/
def askPolicies (manager : TieringOffloadingManager P) (excludeTierIdx : Option Nat) :
    List Nat → List Nat × TieringOffloadingManager P
  | [] => ([], manager)
  | tierIdx :: rest =>
      if excludeTierIdx = some tierIdx then askPolicies manager excludeTierIdx rest
      else
        let (chosen, after) := askPolicies manager.next excludeTierIdx rest
        (if manager.answer.policy = .requestLevel then tierIdx :: chosen else chosen, after)

omit [CachePolicy P] in
def onNewRequest (reqContext : ReqContext) (excludeTierIdx : Option Nat := none) :
    OffloadPolicy × TieringOffloadingManager P :=
  let (chosen, manager) :=
    manager.askPolicies excludeTierIdx (List.range manager.secondaryTiers.length)
  (if chosen = [] then .blockLevel else .requestLevel,
    manager.setRequest reqContext.reqId
      { reqContext := reqContext, requestLevelTiers := chosen })

omit [CachePolicy P] in
def onRequestFinished (reqContext : ReqContext) (excludeTierIdx : Option Nat := none) :
    Except PyError (TieringOffloadingManager P) := do
  let state ← pyItem .requestState (manager.reqState.get? reqContext.reqId)
  let manager := manager.setRequest reqContext.reqId { state with isFinished := true }
  manager.maybeFinalizeRequest reqContext.reqId excludeTierIdx

def serveCall (tierIdx : Nat) : ParentCall → Except PyError (TieringOffloadingManager P)
  | .onNewRequest reqContext => .ok (manager.onNewRequest reqContext (some tierIdx)).2
  | .lookup key reqContext => do
      let (_, manager) ← manager.lookup key reqContext (some tierIdx)
      .ok manager
  | .createStoreJob keys reqContext => do
      let (_, manager) ← manager.createStoreJob keys reqContext tierIdx
      .ok manager
  | .onRequestFinished reqContext => manager.onRequestFinished reqContext (some tierIdx)

def serveCalls (manager : TieringOffloadingManager P) (tierIdx : Nat) :
    List ParentCall → Except PyError (TieringOffloadingManager P)
  | [] => .ok manager
  | parentCall :: rest => do
      let manager ← manager.serveCall tierIdx parentCall
      serveCalls manager tierIdx rest

def serveExternalRequests (manager : TieringOffloadingManager P) :
    List Nat → Except PyError (TieringOffloadingManager P)
  | [] => .ok manager
  | tierIdx :: rest => do
      let manager ← manager.next.serveCalls tierIdx manager.answer.served
      serveExternalRequests manager rest

def onScheduleEnd (context : ScheduleEndContext) :
    Except PyError (TieringOffloadingManager P) := do
  let manager ← manager.maybeProcessFinishedJobs
  let manager ← manager.serveExternalRequests (List.range manager.secondaryTiers.length)
  let manager := manager.setProcessed false
  .ok (manager.flushPendingPromotions.callAll (.onScheduleEnd context))

omit [CachePolicy P] in
/-- Finished requests are finalized by the reset; the others forget their stores. -/
def resetRequests : TieringOffloadingManager P :=
  let forwarded := manager.reqState.values.foldl
    (fun manager state =>
      if state.isFinished then manager.forwardRequestFinished state.reqContext none
      else manager) manager
  let active := manager.reqState.entries.filter fun entry => entry.2.isFinished = false
  { forwarded with
    reqState := active.foldl
      (fun states entry => states.set entry.1 { entry.2 with pendingPrimaryStores := 0 })
      OrderedMap.empty }

def resetCache : Except PyError (TieringOffloadingManager P) := do
  let manager ← (manager.callAll .drainJobs).processFinishedJobs
  pyAssert (manager.jobs.entries.isEmpty = true)
  let manager := { manager.withStorePends OrderedMap.empty OrderedMap.empty with
    pendingLoadSubmissions := OrderedMap.empty }
  let manager := manager.resetRequests
  .ok ((manager.withPrimary manager.primaryTier.resetCache).setProcessed false)

end TieringOffloadingManager

end KvOffload.Tiering
