import KvOffload.ConnectorCompletion
import KvOffload.SetMap
import Mathlib.Logic.Function.Basic

/-!
# The job books of the connector

What the connector is, as far as its jobs are concerned: for each tracked request the jobs
in flight and whether it has finished, for each job what is kept until its reports are
in, and the blocks that wait for a job. A move changes the books once and makes at most
one call to the manager for it.
-/

namespace KvOffload.JobBooks

open KvOffload KvOffload.Base KvOffload.ConnectorConfig KvOffload.ConnectorRequests
open KvOffload.ManagerInterface KvOffload.ConnectorScheduler

set_option autoImplicit false

structure ReqBooks where
  reqContext : ReqContext
  transferJobs : List JobId := []
  finishedSignaled : Bool := false
  isFinished : Bool := false

def reqBooks (status : RequestOffloadState) : ReqBooks where
  reqContext := status.reqContext
  transferJobs := status.transferJobs
  finishedSignaled := status.finishedSignaled
  isFinished := status.req.isFinished

structure Desk (M : Type) where
  numWorkers : Nat
  manager : M
  requests : ReqId → Option ReqBooks
  jobs : OrderedMap JobId TransferJobStatus
  fences : OrderedMap Nat (Finset JobId)
  jobCounter : JobId
  staleJobThreshold : JobId

variable {M : Type}

/-- The job books that a scheduler keeps. -/
def desk (scheduler : OffloadingConnectorScheduler M) : Desk M where
  numWorkers := scheduler.config.numWorkers
  manager := scheduler.manager
  requests := fun reqId => (scheduler.reqStatus.get? reqId).map reqBooks
  jobs := scheduler.jobs
  fences := scheduler.blockIdToPendingJobs
  jobCounter := scheduler.jobCounter
  staleJobThreshold := scheduler.staleJobThreshold

namespace Desk

variable (books : Desk M)

def withManager (manager : M) : Desk M := { books with manager := manager }

def withRequest (reqId : ReqId) (request : Option ReqBooks) : Desk M :=
  { books with requests := Function.update books.requests reqId request }

/-- A new job of a request; `fenced` are the blocks that wait for it. -/
def enter (reqId : ReqId) (request : ReqBooks) (job : TransferJobStatus) (fenced : List Nat) :
    Desk M :=
  { books.withRequest reqId
      (some { request with transferJobs := request.transferJobs.insert books.jobCounter }) with
    jobs := books.jobs.set books.jobCounter job
    fences := SetMap.addAll books.jobCounter books.fences fenced
    jobCounter := books.jobCounter + 1 }

def withJob (jobId : JobId) (job : TransferJobStatus) : Desk M :=
  { books with jobs := books.jobs.set jobId job }

def withFences (fences : OrderedMap Nat (Finset JobId)) : Desk M :=
  { books with fences := fences }

def dropJob (jobId : JobId) : Desk M := { books with jobs := books.jobs.erase jobId }

/-- A request that has just lost a job; it leaves when it was signaled and has no other. -/
def remaining (request : ReqBooks) (jobId : JobId) : Option ReqBooks :=
  let kept := { request with transferJobs := request.transferJobs.erase jobId }
  if kept.finishedSignaled = true ∧ kept.transferJobs = [] then none else some kept

/-- A request once its end is signaled. -/
def signaled (request : ReqBooks) : Option ReqBooks :=
  if request.transferJobs = [] then none else some { request with finishedSignaled := true }

/-- The books after a reset: the finished requests are gone, and so are all jobs. -/
def reset : Desk M :=
  { books with
    requests := fun reqId => (books.requests reqId).bind fun request =>
      if request.isFinished then none else some { request with transferJobs := [] }
    jobs := OrderedMap.empty
    fences := OrderedMap.empty
    staleJobThreshold := books.jobCounter }

end Desk

/-- The blocks that wait for a job of the request until it is reported. -/
def fencedOf (job : TransferJobStatus) (isFinished : Bool) : List Nat :=
  job.fencedBlockIds ++ if isFinished then job.deferredFenceBlockIds else []

def fenceAll (jobs : List (JobId × TransferJobStatus)) (fences : OrderedMap Nat (Finset JobId)) :
    OrderedMap Nat (Finset JobId) :=
  jobs.foldl (fun fences entry => SetMap.addAll entry.1 fences entry.2.deferredFenceBlockIds)
    fences

variable [OffloadingManager M]

/-- A request comes in, passes through untracked, or finishes; a finished request's jobs
are waited for by all their blocks. -/
inductive Admit : ReqId → Desk M → Desk M → Prop where
  | opened {books : Desk M} {reqContext : ReqContext} (isFinished : Bool)
      (fresh : books.requests reqContext.reqId = none) :
      Admit reqContext.reqId books ((books.withManager
        (OffloadingManager.onNewRequest books.manager reqContext).2).withRequest
          reqContext.reqId (some { reqContext := reqContext, isFinished := isFinished }))
  | passed {books : Desk M} {reqContext : ReqContext} {manager : M}
      (untracked : books.requests reqContext.reqId = none)
      (call : OffloadingManager.onRequestFinished
        (OffloadingManager.onNewRequest books.manager reqContext).2 reqContext = .ok manager) :
      Admit reqContext.reqId books (books.withManager manager)
  | finished {books : Desk M} {reqId : ReqId} {request : ReqBooks}
      {jobs : List (JobId × TransferJobStatus)} (tracked : books.requests reqId = some request)
      (listed : jobs.map Prod.fst = request.transferJobs)
      (found : ∀ entry ∈ jobs, books.jobs.get? entry.1 = some entry.2) :
      Admit reqId books ((books.withRequest reqId (some { request with isFinished := true })).withFences
        (fenceAll jobs books.fences))

/-- The moves that serve the requests. A request whose end was signaled is only served in a
`lax` system. -/
inductive Move (lax : Prop) : Desk M → Desk M → Prop where
  | looked {books : Desk M} {reqId : ReqId} {request : ReqBooks} {key : OffloadKey}
      {result : LookupResult} {manager : M} (tracked : books.requests reqId = some request)
      (served : request.finishedSignaled = true → lax)
      (call : OffloadingLookup.lookup books.manager key request.reqContext =
        .ok (result, manager)) :
      Move lax books (books.withManager manager)
  | touched (books : Desk M) (keys : List OffloadKey) :
      Move lax books (books.withManager (OffloadingLookup.touch books.manager keys))
  | loadIssued {books : Desk M} {reqId : ReqId} {request : ReqBooks} {keys : List OffloadKey}
      {blockIds : List Nat} {manager : M} (tracked : books.requests reqId = some request)
      (served : request.finishedSignaled = true → lax) (idle : request.transferJobs = [])
      (call : OffloadingManager.prepareLoad books.manager keys = .ok (blockIds, manager)) :
      Move lax books ((books.withManager manager).enter reqId request
        { reqId := reqId
          pendingCount := books.numWorkers
          keys := keys.dedup
          isStore := false } [])
  | storeDeclined {books : Desk M} {reqId : ReqId} {request : ReqBooks}
      {keys : List OffloadKey} {bypassThreshold : Bool} {output : Option PrepareStoreOutput}
      {manager : M} (tracked : books.requests reqId = some request)
      (served : request.finishedSignaled = true → lax)
      (call : OffloadingManager.prepareStore books.manager keys request.reqContext
        bypassThreshold = .ok (output, manager))
      (nothing : ∀ accepted ∈ output, accepted.keysToStore = []) :
      Move lax books (books.withManager manager)
  | storeIssued {books : Desk M} {reqId : ReqId} {request : ReqBooks}
      {keys : List OffloadKey} {bypassThreshold : Bool} {output : PrepareStoreOutput}
      {manager : M} {fenced deferred : List Nat} (tracked : books.requests reqId = some request)
      (served : request.finishedSignaled = true → lax)
      (call : OffloadingManager.prepareStore books.manager keys request.reqContext
        bypassThreshold = .ok (some output, manager))
      (something : output.keysToStore ≠ []) :
      Move lax books ((books.withManager manager).enter reqId request
        { reqId := reqId
          pendingCount := books.numWorkers
          keys := output.keysToStore.dedup
          isStore := true
          deferredFenceBlockIds := deferred
          fencedBlockIds := fenced }
        (fenced ++ if request.isFinished then deferred else []))
  | scheduleEnded {books : Desk M} {context : ScheduleEndContext} {manager : M}
      (call : OffloadingManager.onScheduleEnd books.manager context = .ok manager) :
      Move lax books (books.withManager manager)
  | drained (books : Desk M) :
      Move lax books (books.withManager (OffloadingManager.drainFlushJobIds books.manager).2)

/-- Any number of moves. -/
abbrev Moves (lax : Prop) : Desk M → Desk M → Prop := Relation.ReflTransGen (Move lax)

/-- The manager hears of the end of a tracked request. -/
inductive Signal (lax : Prop) : Desk M → Desk M → Prop where
  | signaled {books : Desk M} {reqId : ReqId} {request : ReqBooks} {manager : M}
      (tracked : books.requests reqId = some request)
      (served : request.finishedSignaled = true → lax) (ended : request.isFinished = true)
      (call : OffloadingManager.onRequestFinished books.manager request.reqContext =
        .ok manager) :
      Signal lax books ((books.withManager manager).withRequest reqId (Desk.signaled request))

abbrev Signals (lax : Prop) : Desk M → Desk M → Prop := Relation.ReflTransGen (Signal lax)

/-- What the manager is told of a job that all workers have reported. -/
def completionCall (manager : M) (job : TransferJobStatus) (reqContext : ReqContext) :
    Except PyError M :=
  if job.isStore then OffloadingManager.completeStore manager job.keys reqContext
  else OffloadingManager.completeLoad manager job.keys

/-- `count` workers report a job. -/
inductive Report (jobId : JobId) (count : Int) : Desk M → Desk M → Prop where
  | stale {books : Desk M} (before : jobId < books.staleJobThreshold) :
      Report jobId count books books
  | partly {books : Desk M} {job : TransferJobStatus}
      (live : books.staleJobThreshold ≤ jobId) (found : books.jobs.get? jobId = some job)
      (open_ : 0 < job.pendingCount - count) :
      Report jobId count books
        (books.withJob jobId { job with pendingCount := job.pendingCount - count })
  | fully {books : Desk M} {job : TransferJobStatus} {request : ReqBooks} {manager : M}
      {fences : OrderedMap Nat (Finset JobId)} (live : books.staleJobThreshold ≤ jobId)
      (found : books.jobs.get? jobId = some job) (closed : job.pendingCount = count)
      (tracked : books.requests job.reqId = some request)
      (listed : jobId ∈ request.transferJobs)
      (call : completionCall books.manager job request.reqContext = .ok manager)
      (unfenced : books.fences.entries = [] ∧ fences = books.fences ∨
        SetMap.removeAll jobId books.fences (fencedOf job request.isFinished) = some fences) :
      Report jobId count books
        ((((books.withManager manager).withFences fences).dropJob jobId).withRequest job.reqId
          (Desk.remaining request jobId))

/-- The manager hears of the finished requests that were not signaled. -/
def finishAll (manager : M) : List ReqContext → Except PyError M
  | [] => .ok manager
  | reqContext :: rest => do
      let manager ← OffloadingManager.onRequestFinished manager reqContext
      finishAll manager rest

/-- The reset of the books: the finished requests whose end was not signaled are signaled
first. -/
inductive Reset : Desk M → Desk M → Prop where
  | reset {books : Desk M} {unsent : List ReqId} {finished manager : M}
      (distinct : unsent.Nodup)
      (listed : ∀ reqId, reqId ∈ unsent ↔ ∃ request, books.requests reqId = some request ∧
        request.isFinished = true ∧ request.finishedSignaled = false)
      (calls : finishAll books.manager (unsent.filterMap fun reqId =>
        (books.requests reqId).map ReqBooks.reqContext) = .ok finished)
      (call : OffloadingManager.resetCache finished = .ok manager) :
      Reset books (books.reset.withManager manager)

end KvOffload.JobBooks
