import KvOffload.JobBooks
import KvOffload.LookupCalls

/-!
# The connector follows its job books

Each operation of the connector scheduler is a sequence of moves of the job books: the
lookups and touches of the search, the jobs it enters, and the requests it opens and
finishes.
-/

namespace KvOffload.ConnectorMoves

open KvOffload KvOffload.Base KvOffload.ConnectorConfig KvOffload.ConnectorRequests
open KvOffload.ManagerInterface KvOffload.ConnectorScheduler KvOffload.ConnectorLoads
open KvOffload.ConnectorStores KvOffload.ConnectorCompletion KvOffload.LookupCalls
open KvOffload.JobBooks

set_option autoImplicit false

variable {M : Type}

section Desks

variable (scheduler : OffloadingConnectorScheduler M)

@[simp] theorem desk_with_manager (manager : M) :
    desk (scheduler.withManager manager) = (desk scheduler).withManager manager := rfl

@[simp] theorem desk_with_clock (clock : StaleHitLadder.Clock) :
    desk (scheduler.withClock clock) = desk scheduler := rfl

theorem desk_requests (reqId : ReqId) :
    (desk scheduler).requests reqId = (scheduler.reqStatus.get? reqId).map reqBooks := rfl

theorem desk_set_status (reqId : ReqId) (status : RequestOffloadState) :
    desk (scheduler.setStatus reqId status) =
      (desk scheduler).withRequest reqId (some (reqBooks status)) := by
  have requests : (fun other => ((scheduler.reqStatus.set reqId status).get? other).map reqBooks) =
      Function.update (desk scheduler).requests reqId (some (reqBooks status)) := by
    funext other
    rw [OrderedMap.get_set, Function.update_apply]
    split
    · rfl
    · rfl
  exact congrArg (fun requests => { desk scheduler with requests := requests }) requests

theorem desk_forget (reqId : ReqId) :
    desk (scheduler.forget reqId) = (desk scheduler).withRequest reqId none := by
  have requests : (fun other => ((scheduler.reqStatus.erase reqId).get? other).map reqBooks) =
      Function.update (desk scheduler).requests reqId none := by
    funext other
    rw [OrderedMap.get_erase, Function.update_apply]
    split
    · rfl
    · rfl
  exact congrArg (fun requests => { desk scheduler with requests := requests }) requests

variable {scheduler}

theorem tracked_of_status {reqId : ReqId} {status : RequestOffloadState}
    (found : scheduler.reqStatus.get? reqId = some status) :
    (desk scheduler).requests reqId = some (reqBooks status) := by
  rw [desk_requests, found]
  rfl

theorem status_of_tracked {reqId : ReqId} {request : ReqBooks}
    (tracked : (desk scheduler).requests reqId = some request) :
    ∃ status, scheduler.reqStatus.get? reqId = some status ∧ reqBooks status = request :=
  Option.map_eq_some_iff.mp tracked

theorem status_of_ok {reqId : ReqId} {status : RequestOffloadState}
    (found : scheduler.statusOf reqId = .ok status) :
    scheduler.reqStatus.get? reqId = some status :=
  py_item_eq_ok.mp found

theorem with_request_self {books : Desk M} {reqId : ReqId} {request : ReqBooks}
    (tracked : books.requests reqId = some request) :
    books.withRequest reqId (some request) = books := by
  have same := Function.update_eq_self reqId books.requests
  rw [tracked] at same
  exact congrArg (fun requests => { books with requests := requests }) same

/-- A change of a request that its books do not show. -/
theorem desk_set_same {reqId : ReqId} {status changed : RequestOffloadState}
    (found : scheduler.reqStatus.get? reqId = some status)
    (same : reqBooks changed = reqBooks status) :
    desk (scheduler.setStatus reqId changed) = desk scheduler := by
  rw [desk_set_status, same]
  exact with_request_self (tracked_of_status found)

theorem desk_fence_blocks (scheduler : OffloadingConnectorScheduler M) (jobId : JobId)
    (blockIds : List Nat) :
    desk (scheduler.fenceBlocks jobId blockIds) =
      (desk scheduler).withFences (SetMap.addAll jobId (desk scheduler).fences blockIds) := by
  induction blockIds generalizing scheduler with
  | nil => rfl
  | cons blockId rest ih => exact ih (scheduler.fence jobId blockId)

theorem get_status_fence_blocks (scheduler : OffloadingConnectorScheduler M) (jobId : JobId)
    (blockIds : List Nat) :
    (scheduler.fenceBlocks jobId blockIds).reqStatus = scheduler.reqStatus := by
  induction blockIds generalizing scheduler with
  | nil => rfl
  | cons blockId rest ih => exact ih (scheduler.fence jobId blockId)

end Desks

section Books

variable (status : RequestOffloadState)

@[simp] theorem books_map_groups (change : Nat → RequestGroupState → RequestGroupState) :
    reqBooks (status.mapGroups change) = reqBooks status := rfl

@[simp] theorem books_map_offloaded (config : SchedulerOffloadConfig)
    (change : GroupOffloadConfig → RequestGroupState → RequestGroupState) :
    reqBooks (status.mapOffloaded config change) = reqBooks status := rfl

@[simp] theorem books_clear_block_ids :
    reqBooks status.clearBlockIds = reqBooks status := rfl

@[simp] theorem books_update_offload_keys (config : SchedulerOffloadConfig) :
    reqBooks (status.updateOffloadKeys config) = reqBooks status := rfl

@[simp] theorem books_with_stale_hit (staleHit : StaleHit) :
    reqBooks (status.withStaleHit staleHit) = reqBooks status := rfl

@[simp] theorem books_with_partial_tail (boundary : Option Nat) :
    reqBooks (status.withPartialTail boundary) = reqBooks status := rfl

@[simp] theorem books_update_num_hit_chunks (config : SchedulerOffloadConfig)
    (numCachedTokens : Nat) :
    reqBooks (status.updateNumHitChunks config numCachedTokens) = reqBooks status := rfl

@[simp] theorem books_advance_stored_idx (config : SchedulerOffloadConfig)
    (numOffloadableTokens : Nat) :
    reqBooks (status.advanceStoredIdx config numOffloadableTokens) = reqBooks status := rfl

@[simp] theorem books_skip_hit_chunks (config : SchedulerOffloadConfig)
    (numCachedTokens : Nat) :
    reqBooks (skipHitChunks config status numCachedTokens) = reqBooks status := by
  unfold skipHitChunks
  split
  · rfl
  · rfl

theorem books_update_block_id_groups {config : SchedulerOffloadConfig}
    {newBlockIdGroups : List (List Nat)} {extended : RequestOffloadState}
    (updated : status.updateBlockIdGroups config newBlockIdGroups = .ok extended) :
    reqBooks extended = reqBooks status := by
  obtain ⟨_, _, updated⟩ := bind_eq_ok.mp updated
  cases updated
  rfl

end Books

section Entries

variable {scheduler after : OffloadingConnectorScheduler M}

theorem enter_load_job_desk {reqId : ReqId} {status : RequestOffloadState} {plan : LoadPlan}
    {cpuBlockIds : List Nat}
    (entered : enterLoadJob scheduler reqId status plan cpuBlockIds = .ok after) :
    status.transferJobs = [] ∧ desk after = (desk scheduler).enter reqId (reqBooks status)
      { reqId := reqId
        pendingCount := scheduler.config.numWorkers
        keys := plan.keysToLoad.dedup
        isStore := false } [] := by
  obtain ⟨gpuSpec, _, entered⟩ := bind_eq_ok.mp entered
  obtain ⟨_, idle, entered⟩ := bind_eq_ok.mp entered
  cases entered
  refine ⟨py_assert_eq_ok.mp idle, ?_⟩
  have requests := congrArg Desk.requests (desk_set_status scheduler reqId
    ((status.withTransferJob scheduler.jobCounter).withPartialTail none))
  exact congrArg (fun requests =>
    { (desk scheduler).enter reqId (reqBooks status)
        { reqId := reqId
          pendingCount := scheduler.config.numWorkers
          keys := plan.keysToLoad.dedup
          isStore := false } [] with requests := requests }) requests

/-- The scheduler core changes a request without finishing it. -/
theorem request_changed_desk {req : Request}
    (same : ∀ status, scheduler.reqStatus.get? req.requestId = some status →
      req.isFinished = status.req.isFinished) :
    desk (scheduler.requestChanged req) = desk scheduler := by
  have requests : (fun reqId => ((scheduler.requestChanged req).reqStatus.get? reqId).map
      reqBooks) = (desk scheduler).requests := by
    funext reqId
    unfold OffloadingConnectorScheduler.requestChanged
    rw [OrderedMap.get_modify, desk_requests]
    split
    · rename_i changed
      subst changed
      cases found : scheduler.reqStatus.get? req.requestId with
      | none => rfl
      | some status =>
          have finished := same status found
          simp [reqBooks, RequestOffloadState.withRequest, finished]
    · rfl
  exact congrArg (fun requests => { desk scheduler with requests := requests }) requests

theorem fence_deferred_desk (jobIds : List JobId) {scheduler : OffloadingConnectorScheduler M}
    (fenced : fenceDeferred scheduler jobIds = .ok after) :
    ∃ jobs : List (JobId × TransferJobStatus), jobs.map Prod.fst = jobIds ∧
      (∀ entry ∈ jobs, scheduler.jobs.get? entry.1 = some entry.2) ∧
      desk after = (desk scheduler).withFences (fenceAll jobs (desk scheduler).fences) := by
  induction jobIds generalizing scheduler with
  | nil =>
      cases fenced
      exact ⟨[], rfl, by simp, rfl⟩
  | cons jobId rest ih =>
      obtain ⟨job, found, fenced⟩ := bind_eq_ok.mp fenced
      have found : scheduler.jobs.get? jobId = some job := py_item_eq_ok.mp found
      obtain ⟨jobs, listed, present, fencing⟩ := ih fenced
      have first := desk_fence_blocks scheduler jobId job.deferredFenceBlockIds
      refine ⟨(jobId, job) :: jobs, by simp [listed], ?_, ?_⟩
      · intro entry member
        rcases List.mem_cons.mp member with rfl | later
        · exact found
        · rw [← present entry later]
          exact congrArg (fun map => OrderedMap.get? map entry.1)
            (congrArg Desk.jobs first).symm
      · rw [fencing, first]
        rfl

end Entries

section Removal

theorem remove_fence_eq (scheduler : OffloadingConnectorScheduler M) (jobId : JobId)
    (blockId : Nat) :
    scheduler.removeFence jobId blockId =
      match SetMap.remove jobId scheduler.blockIdToPendingJobs blockId with
      | some fences => .ok { scheduler with blockIdToPendingJobs := fences }
      | none => .error (.keyError .blockIdToPendingJobs) := by
  unfold OffloadingConnectorScheduler.removeFence SetMap.remove
  cases scheduler.blockIdToPendingJobs.get? blockId with
  | none => rfl
  | some pending =>
      rw [py_item_some, ok_bind]
      by_cases member : jobId ∈ pending
      · rw [if_pos member]
        dsimp only
        rw [if_pos member]
      · rw [if_neg member]
        dsimp only
        rw [if_neg member]

theorem remove_pending_job_eq (jobId : JobId) (blockIds : List Nat)
    (scheduler : OffloadingConnectorScheduler M) :
    OffloadingConnectorScheduler.removePendingJob jobId blockIds scheduler =
      match SetMap.removeAll jobId scheduler.blockIdToPendingJobs blockIds with
      | some fences => .ok { scheduler with blockIdToPendingJobs := fences }
      | none => .error (.keyError .blockIdToPendingJobs) := by
  induction blockIds generalizing scheduler with
  | nil => rfl
  | cons blockId rest ih =>
      unfold OffloadingConnectorScheduler.removePendingJob SetMap.removeAll
      rw [remove_fence_eq]
      cases SetMap.remove jobId scheduler.blockIdToPendingJobs blockId with
      | none => rfl
      | some fences =>
          rw [ok_bind, ih]
          rfl

/-- The fences that are left, when all of the job's are there. -/
theorem drop_fences_eq (scheduler : OffloadingConnectorScheduler M) (jobId : JobId)
    (job : TransferJobStatus) (isFinished : Bool) :
    dropFences scheduler jobId job isFinished =
      if scheduler.blockIdToPendingJobs.entries = [] then .ok scheduler
      else
        match SetMap.removeAll jobId scheduler.blockIdToPendingJobs
          (fencedOf job isFinished) with
        | some fences => .ok { scheduler with blockIdToPendingJobs := fences }
        | none => .error (.keyError .blockIdToPendingJobs) := by
  unfold dropFences fencedOf
  split
  · rfl
  · rw [remove_pending_job_eq, SetMap.remove_all_append]
    cases SetMap.removeAll jobId scheduler.blockIdToPendingJobs job.fencedBlockIds with
    | none => rfl
    | some fences =>
        rw [ok_bind, Option.bind_some]
        cases isFinished with
        | false => rfl
        | true =>
            rw [if_pos rfl, if_pos rfl, remove_pending_job_eq]

/-- The books once a job is dropped. -/
theorem drop_job_ok {scheduler : OffloadingConnectorScheduler M} {jobId : JobId} {reqId : ReqId}
    {status : RequestOffloadState} (listed : jobId ∈ status.transferJobs) :
    ∃ after, dropJob scheduler jobId reqId status = .ok after ∧
      desk after = ((desk scheduler).dropJob jobId).withRequest reqId
        (Desk.remaining (reqBooks status) jobId) := by
  unfold dropJob
  dsimp only
  rw [if_pos listed]
  by_cases leaves : status.finishedSignaled = true ∧ status.transferJobs.erase jobId = []
  · have books : Desk.remaining (reqBooks status) jobId = none := if_pos leaves
    rw [if_pos leaves, books]
    exact ⟨_, rfl, desk_forget _ reqId⟩
  · have books : Desk.remaining (reqBooks status) jobId = some (reqBooks
        { status with transferJobs := status.transferJobs.erase jobId }) := if_neg leaves
    rw [if_neg leaves, books]
    exact ⟨_, rfl, desk_set_status _ reqId _⟩

theorem drop_job_listed {scheduler after : OffloadingConnectorScheduler M} {jobId : JobId}
    {reqId : ReqId} {status : RequestOffloadState}
    (dropped : dropJob scheduler jobId reqId status = .ok after) :
    jobId ∈ status.transferJobs := by
  unfold dropJob at dropped
  by_contra missing
  rw [if_neg missing] at dropped
  cases dropped

end Removal

variable [OffloadingManager M] {lax : Prop}

/-- The calls of a search are moves. -/
theorem asked_moves {books : Desk M} {reqId : ReqId} {request : ReqBooks} {after : M}
    (tracked : books.requests reqId = some request)
    (served : request.finishedSignaled = true → lax)
    (asked : Asked request.reqContext books.manager after) :
    Moves lax books (books.withManager after) := by
  induction asked with
  | refl => exact .refl
  | tail _ step ih =>
      apply ih.tail
      cases step with
      | looked call =>
          exact @Move.looked M _ lax (books.withManager _) reqId request _ _ _ tracked served call
      | touched keys => exact Move.touched (books.withManager _) keys

theorem touch_asked {scheduler : OffloadingConnectorScheduler M} {status : RequestOffloadState}
    {manager after : M} (reqContext : ReqContext)
    (touched : scheduler.touch status manager = .ok after) :
    Asked reqContext manager after := by
  have groups : ∀ (groups : List GroupOffloadConfig) (manager : M),
      Asked reqContext manager (groups.foldl (fun manager group => OffloadingLookup.touch manager
        (OffloadingConnectorScheduler.touchedKeys group (status.groupStates group.groupIdx)))
        manager) := by
    intro groups
    induction groups with
    | nil => exact fun _ => .refl
    | cons group rest ih => exact fun manager => .head (.touched manager _) (ih _)
  unfold OffloadingConnectorScheduler.touch at touched
  dsimp only at touched
  split at touched
  · cases touched
    exact groups _ _
  · obtain ⟨keys, _, touched⟩ := bind_eq_ok.mp touched
    cases touched
    exact (groups _ _).tail (.touched _ keys)

theorem settled_moves {books : Desk M} {scheduler : OffloadingConnectorScheduler M}
    {reqId : ReqId} {status changed : RequestOffloadState}
    (moves : Moves lax books (desk scheduler))
    (found : scheduler.reqStatus.get? reqId = some status)
    (same : reqBooks changed = reqBooks status) :
    Moves lax books (desk (scheduler.setStatus reqId changed)) := by
  rw [desk_set_same found same]
  exact moves

section Admission

variable {scheduler after : OffloadingConnectorScheduler M}

theorem on_new_request_admit (scheduler : OffloadingConnectorScheduler M) (req : Request)
    (fresh : scheduler.reqStatus.get? req.requestId = none) :
    Admit req.requestId (desk scheduler) (desk (scheduler.onNewRequest req)) := by
  have untracked : (desk scheduler).requests (createReqContext req).reqId = none := by
    rw [desk_requests]
    exact congrArg (Option.map reqBooks) fresh
  have opened := Admit.opened req.isFinished untracked
  unfold OffloadingConnectorScheduler.onNewRequest
  dsimp only
  rw [desk_set_status]
  exact opened

theorem fresh_lookup_asked {status found : RequestOffloadState} {numHitTokens : Option Nat}
    {manager : M}
    (looked : scheduler.freshLookup status = .ok (numHitTokens, found, manager)) :
    Asked status.reqContext scheduler.manager manager ∧ reqBooks found = reqBooks status := by
  unfold OffloadingConnectorScheduler.freshLookup at looked
  split at looked
  · cases looked
    exact ⟨.refl, rfl⟩
  · obtain ⟨⟨⟨numHitTokens, boundary⟩, manager⟩, called, looked⟩ := bind_eq_ok.mp looked
    cases looked
    exact ⟨lookup_asked called, rfl⟩

theorem answer_hit_moves {reqId : ReqId} {old status : RequestOffloadState}
    {numComputedTokens : Nat} {numHitTokens : Option Nat}
    {answer : OffloadingConnectorScheduler.Matched}
    (found : scheduler.reqStatus.get? reqId = some old) (same : reqBooks status = reqBooks old)
    (served : old.finishedSignaled = true → lax)
    (answered : scheduler.answerHit reqId status numComputedTokens numHitTokens =
      .ok (answer, after)) : Moves lax (desk scheduler) (desk after) := by
  unfold OffloadingConnectorScheduler.answerHit at answered
  dsimp only at answered
  split at answered
  · cases answered
    apply settled_moves
    · exact .refl
    · exact found
    · exact same
  · obtain ⟨manager, touched, answered⟩ := bind_eq_ok.mp answered
    have moves : Moves lax (desk scheduler) ((desk scheduler).withManager manager) :=
      asked_moves (tracked_of_status found) served (touch_asked _ touched)
    generalize StaleHitLadder.StaleHit.climb _ _ _ _ _ = climbed at answered
    obtain ⟨fallsBack, climbed, clock⟩ := climbed
    dsimp only at answered
    split at answered
    · cases answered
      apply settled_moves
      · exact moves
      · exact found
      · exact same
    · cases answered
      apply settled_moves
      · exact moves
      · exact found
      · exact same

theorem get_num_moves {reqId : ReqId} {numComputedTokens : Nat}
    {answer : OffloadingConnectorScheduler.Matched}
    (served : ∀ status, scheduler.reqStatus.get? reqId = some status →
      status.finishedSignaled = true → lax)
    (called : scheduler.getNumNewMatchedTokens reqId numComputedTokens = .ok (answer, after)) :
    Moves lax (desk scheduler) (desk after) := by
  unfold OffloadingConnectorScheduler.getNumNewMatchedTokens at called
  obtain ⟨status, found, called⟩ := bind_eq_ok.mp called
  have found := status_of_ok found
  have served := served status found
  dsimp only at called
  split at called
  · cases called
    apply settled_moves
    · exact .refl
    · exact found
    · exact rfl
  · split at called
    · cases called
      apply settled_moves
      · exact .refl
      · exact found
      · exact rfl
    · split at called
      · cases called
        apply settled_moves
        · exact .refl
        · exact found
        · exact rfl
      · obtain ⟨⟨numHitTokens, looked, manager⟩, lookup, called⟩ := bind_eq_ok.mp called
        obtain ⟨asked, same⟩ := fresh_lookup_asked lookup
        have first : Moves lax (desk scheduler) ((desk scheduler).withManager manager) :=
          asked_moves (tracked_of_status found) served asked
        apply first.trans
        exact @answer_hit_moves M _ lax ((scheduler.withManager manager).withClock _) _ _ _ _ _ _ _
          found same served called

theorem update_state_after_alloc_moves {reqId : ReqId} {blocks : List (List KVCacheBlock)}
    {numExternalTokens : Nat}
    (served : ∀ status, scheduler.reqStatus.get? reqId = some status →
      status.finishedSignaled = true → lax)
    (allocated : updateStateAfterAlloc scheduler reqId blocks numExternalTokens = .ok after) :
    Moves lax (desk scheduler) (desk after) := by
  unfold updateStateAfterAlloc at allocated
  split at allocated
  · cases allocated
    exact .refl
  · obtain ⟨status, found, allocated⟩ := bind_eq_ok.mp allocated
    have found := status_of_ok found
    obtain ⟨_, _, allocated⟩ := bind_eq_ok.mp allocated
    obtain ⟨plan, _, allocated⟩ := bind_eq_ok.mp allocated
    obtain ⟨⟨cpuBlockIds, manager⟩, call, allocated⟩ := bind_eq_ok.mp allocated
    obtain ⟨idle, entered⟩ := enter_load_job_desk allocated
    rw [entered, books_skip_hit_chunks]
    have idle : status.transferJobs = [] := by
      rw [← idle]
      exact (congrArg ReqBooks.transferJobs (books_skip_hit_chunks status _ _)).symm
    exact .single (Move.loadIssued (tracked_of_status found) (served status found) idle call)

theorem request_finished_admitted {req : Request} (finished : req.isFinished = true)
    (called : requestFinished scheduler req = .ok after) :
    Admit req.requestId (desk scheduler) (desk after) := by
  unfold requestFinished at called
  cases found : scheduler.reqStatus.get? req.requestId with
  | none =>
      rw [found] at called
      obtain ⟨manager, call, called⟩ := bind_eq_ok.mp called
      cases called
      apply @Admit.passed M _ (desk scheduler) (createReqContext req)
      · rw [desk_requests]
        exact congrArg (Option.map reqBooks) found
      · exact call
  | some status =>
      rw [found] at called
      obtain ⟨jobs, listed, present, fenced⟩ := fence_deferred_desk _ called
      rw [fenced, desk_set_status]
      have books : reqBooks ((status.withRequest req).updateOffloadKeys scheduler.config) =
          { reqBooks status with isFinished := true } := by
        rw [books_update_offload_keys]
        exact congrArg (fun flag => { reqBooks status with isFinished := flag }) finished
      rw [books]
      exact .finished (tracked_of_status found) listed present

end Admission

section Reports

variable {scheduler after : OffloadingConnectorScheduler M}

/-- The scheduler once the manager has heard of a reported job. -/
def told (scheduler : OffloadingConnectorScheduler M) (job : TransferJobStatus) (manager : M) :
    OffloadingConnectorScheduler M :=
  { scheduler.withManager manager with
    chunksBeingLoaded :=
      if job.isStore then scheduler.chunksBeingLoaded
      else scheduler.chunksBeingLoaded.map fun loading => loading \ job.keys.toFinset }

theorem complete_transfer_eq (scheduler : OffloadingConnectorScheduler M)
    (job : TransferJobStatus) (status : RequestOffloadState) :
    completeTransfer scheduler job status =
      (completionCall scheduler.manager job status.reqContext).map (told scheduler job) := by
  unfold completeTransfer completionCall told
  by_cases isStore : job.isStore = true
  · simp only [if_pos isStore]
    cases OffloadingManager.completeStore scheduler.manager job.keys status.reqContext with
    | error problem => rfl
    | ok manager => rfl
  · simp only [if_neg isStore]
    cases OffloadingManager.completeLoad scheduler.manager job.keys with
    | error problem => rfl
    | ok manager => rfl

/-- The last report of a job: the manager is told, then the job leaves the books. -/
theorem report_job_closes {jobId : JobId} {count : Int} {job : TransferJobStatus}
    {status : RequestOffloadState} (positive : 0 < count)
    (live : scheduler.staleJobThreshold ≤ jobId) (found : scheduler.jobs.get? jobId = some job)
    (closed : job.pendingCount - count = 0)
    (tracked : scheduler.reqStatus.get? job.reqId = some status) :
    reportJob scheduler jobId count = (do
      let manager ← completionCall scheduler.manager job status.reqContext
      let reported := { job with pendingCount := job.pendingCount - count }
      let scheduler ← dropFences (told (scheduler.withJob jobId reported) reported manager) jobId
        reported status.req.isFinished
      dropJob scheduler jobId job.reqId status) := by
  unfold reportJob
  have isJob : scheduler.jobStatus jobId = .ok job := py_item_eq_ok.mpr found
  rw [py_assert_of positive, ok_bind, if_neg (Nat.not_lt_of_le live), isJob, ok_bind]
  dsimp only
  rw [if_neg (by omega), py_assert_of closed, ok_bind]
  unfold finishJob
  have isStatus : (scheduler.withJob jobId { job with
      pendingCount := job.pendingCount - count }).statusOf job.reqId = .ok status :=
    py_item_eq_ok.mpr tracked
  rw [isStatus, ok_bind, complete_transfer_eq]
  change (Except.map _ (completionCall scheduler.manager job status.reqContext) >>= _) = _
  cases completionCall scheduler.manager job status.reqContext with
  | error problem => rfl
  | ok manager => rfl

omit [OffloadingManager M] in
theorem told_drop_desk (scheduler : OffloadingConnectorScheduler M) (jobId : JobId)
    (job : TransferJobStatus) (manager : M) (fences : OrderedMap Nat (Finset JobId)) :
    ((desk (told (scheduler.withJob jobId job) job manager)).withFences fences).dropJob jobId =
      (((desk scheduler).withManager manager).withFences fences).dropJob jobId :=
  congrArg (fun jobs =>
    { ((desk scheduler).withManager manager).withFences fences with jobs := jobs })
    (OrderedMap.erase_set scheduler.jobs jobId job)

theorem report_job_report {jobId : JobId} {count : Int}
    (reported : reportJob scheduler jobId count = .ok after) :
    0 < count ∧ Report jobId count (desk scheduler) (desk after) := by
  obtain ⟨_, positive, reported⟩ := bind_eq_ok.mp reported
  refine ⟨py_assert_eq_ok.mp positive, ?_⟩
  split at reported
  · rename_i before
    cases reported
    exact .stale before
  · rename_i live
    have live : scheduler.staleJobThreshold ≤ jobId := Nat.le_of_not_lt live
    obtain ⟨job, found, reported⟩ := bind_eq_ok.mp reported
    have found : scheduler.jobs.get? jobId = some job := py_item_eq_ok.mp found
    dsimp only at reported
    split at reported
    · rename_i open_
      cases reported
      exact .partly live found open_
    · obtain ⟨_, closed, finished⟩ := bind_eq_ok.mp reported
      have closed := py_assert_eq_ok.mp closed
      obtain ⟨status, tracked, finished⟩ := bind_eq_ok.mp finished
      obtain ⟨completed, call, finished⟩ := bind_eq_ok.mp finished
      obtain ⟨unfenced, removed, dropped⟩ := bind_eq_ok.mp finished
      have listed := drop_job_listed dropped
      have tracked : scheduler.reqStatus.get? job.reqId = some status := status_of_ok tracked
      rw [complete_transfer_eq] at call
      obtain ⟨manager, called, same⟩ := map_eq_ok.mp call
      subst same
      obtain ⟨last, done, books⟩ := @drop_job_ok M unfenced jobId job.reqId status listed
      cases dropped.symm.trans done
      have unfencing : ∃ fences, desk unfenced = (desk (told (scheduler.withJob jobId
            { job with pendingCount := job.pendingCount - count })
            { job with pendingCount := job.pendingCount - count } manager)).withFences fences ∧
          ((desk scheduler).fences.entries = [] ∧ fences = (desk scheduler).fences ∨
            SetMap.removeAll jobId (desk scheduler).fences
              (fencedOf job (reqBooks status).isFinished) = some fences) := by
        rw [drop_fences_eq] at removed
        split at removed
        · rename_i empty
          cases removed
          exact ⟨_, rfl, .inl ⟨empty, rfl⟩⟩
        · split at removed
          · rename_i fences present
            cases removed
            exact ⟨fences, rfl, .inr present⟩
          · cases removed
      obtain ⟨fences, same, unfenced⟩ := unfencing
      rw [books, same, told_drop_desk]
      exact .fully live found (Int.sub_eq_zero.mp closed) (tracked_of_status tracked) listed called
        unfenced

end Reports

section Resets

/-- The finished requests of a list whose end was not signaled. -/
def unsent (entries : List (ReqId × RequestOffloadState)) :
    List (ReqId × RequestOffloadState) :=
  entries.filter fun entry => entry.2.req.isFinished && !entry.2.finishedSignaled

def eraseFinished (entries : List (ReqId × RequestOffloadState))
    (statuses : OrderedMap ReqId RequestOffloadState) : OrderedMap ReqId RequestOffloadState :=
  entries.foldl (fun statuses entry =>
    if entry.2.req.isFinished then statuses.erase entry.1 else statuses) statuses

theorem get_erase_finished (entries : List (ReqId × RequestOffloadState))
    (statuses : OrderedMap ReqId RequestOffloadState) (reqId : ReqId) :
    (eraseFinished entries statuses).get? reqId =
      if ∃ entry ∈ entries, entry.1 = reqId ∧ entry.2.req.isFinished = true then none
      else statuses.get? reqId := by
  induction entries generalizing statuses with
  | nil => simp [eraseFinished]
  | cons entry rest ih =>
      have step := ih (if entry.2.req.isFinished then statuses.erase entry.1 else statuses)
      have unfolded : eraseFinished (entry :: rest) statuses = eraseFinished rest
        (if entry.2.req.isFinished then statuses.erase entry.1 else statuses) := rfl
      rw [unfolded, step]
      by_cases finished : entry.2.req.isFinished = true
      · rw [if_pos finished, OrderedMap.get_erase]
        by_cases same : reqId = entry.1
        · simp [same, finished]
        · have different : ¬entry.1 = reqId := fun equal => same equal.symm
          rw [if_neg same]
          exact if_congr (by simp only [List.exists_mem_cons_iff, different, false_and, false_or])
            rfl rfl
      · rw [if_neg finished]
        exact if_congr (by simp [finished]) rfl rfl

theorem drop_finished_eq (entries : List (ReqId × RequestOffloadState))
    (scheduler : OffloadingConnectorScheduler M) :
    dropFinished scheduler entries =
      (finishAll scheduler.manager ((unsent entries).map fun entry => entry.2.reqContext)).map
        fun manager => { scheduler.withManager manager with
          reqStatus := eraseFinished entries scheduler.reqStatus } := by
  induction entries generalizing scheduler with
  | nil => rfl
  | cons entry rest ih =>
      obtain ⟨reqId, status⟩ := entry
      unfold dropFinished
      by_cases active : status.req.isFinished = false
      · have skipped : unsent ((reqId, status) :: rest) = unsent rest := by
          simp [unsent, active]
        rw [if_pos active, ih, skipped]
        simp [eraseFinished, active]
      · have finished : status.req.isFinished = true := by simpa using active
        rw [if_neg active]
        by_cases sent : status.finishedSignaled = true
        · have skipped : unsent ((reqId, status) :: rest) = unsent rest := by
            simp [unsent, sent]
          rw [if_pos sent, ih, skipped]
          simp [eraseFinished, finished, OffloadingConnectorScheduler.forget,
            OffloadingConnectorScheduler.withManager]
        · have listed : unsent ((reqId, status) :: rest) = (reqId, status) :: unsent rest := by
            simp [unsent, sent, finished]
          rw [if_neg sent, listed, List.map_cons, finishAll]
          cases OffloadingManager.onRequestFinished scheduler.manager status.reqContext with
          | error problem => rfl
          | ok manager =>
              rw [ok_bind, ok_bind, ih]
              simp [eraseFinished, finished, OffloadingConnectorScheduler.forget,
                OffloadingConnectorScheduler.withManager]

/-- No step is under way. -/
def Idle (scheduler : OffloadingConnectorScheduler M) : Prop :=
  scheduler.currentBatchLoadJobs.entries.isEmpty = true ∧
    scheduler.currentBatchJobsToFlush = ∅ ∧ scheduler.currentBatchAllocatedBlockIds = ∅

/-- The calls of a reset to the manager. -/
def resetManager (scheduler : OffloadingConnectorScheduler M) : Except PyError M := do
  let manager ← finishAll scheduler.manager
    ((unsent scheduler.reqStatus.entries).map fun entry => entry.2.reqContext)
  OffloadingManager.resetCache manager

omit [OffloadingManager M] in
/-- The scheduler after a reset. -/
def afterReset (scheduler : OffloadingConnectorScheduler M) (manager : M) :
    OffloadingConnectorScheduler M :=
  forgetJobs { scheduler.withManager manager with
    currentBatchJobsToFlush := scheduler.jobs.keys.toFinset
    reqStatus := eraseFinished scheduler.reqStatus.entries scheduler.reqStatus }

theorem reset_cache_eq {scheduler : OffloadingConnectorScheduler M} (idle : Idle scheduler) :
    resetCache scheduler = (resetManager scheduler).map (afterReset scheduler) := by
  unfold resetCache resetManager
  rw [py_assert_of idle.1, ok_bind, py_assert_of idle.2.1, ok_bind, py_assert_of idle.2.2, ok_bind]
  dsimp only
  rw [drop_finished_eq]
  dsimp only
  cases finishAll scheduler.manager
      ((unsent scheduler.reqStatus.entries).map fun entry => entry.2.reqContext) with
  | error problem => rfl
  | ok manager =>
      cases reset : OffloadingManager.resetCache manager with
      | error problem =>
          simp only [Except.map, ok_bind, OffloadingConnectorScheduler.withManager, reset]
          rfl
      | ok last =>
          simp only [Except.map, ok_bind, OffloadingConnectorScheduler.withManager, reset]
          rfl

theorem reset_cache_raises {scheduler : OffloadingConnectorScheduler M}
    (busy : ¬Idle scheduler) : resetCache scheduler = .error .assertionError := by
  unfold resetCache pyAssert
  by_cases loads : scheduler.currentBatchLoadJobs.entries.isEmpty = true
  · rw [if_pos loads, ok_bind]
    by_cases flush : scheduler.currentBatchJobsToFlush = ∅
    · rw [if_pos flush, ok_bind, if_neg fun allocated => busy ⟨loads, flush, allocated⟩]
      rfl
    · rw [if_neg flush]
      rfl
  · rw [if_neg loads]
    rfl

theorem idle_of_reset {scheduler after : OffloadingConnectorScheduler M}
    (called : resetCache scheduler = .ok after) : Idle scheduler := by
  by_contra busy
  rw [reset_cache_raises busy] at called
  cases called

omit [OffloadingManager M] in
theorem after_reset_desk (scheduler : OffloadingConnectorScheduler M) (manager : M) :
    desk (afterReset scheduler manager) = (desk scheduler).reset.withManager manager := by
  have requests : (fun reqId => ((afterReset scheduler manager).reqStatus.get? reqId).map
      reqBooks) = (desk scheduler).reset.requests := by
    funext reqId
    have mapped : (afterReset scheduler manager).reqStatus.get? reqId =
        ((eraseFinished scheduler.reqStatus.entries scheduler.reqStatus).get? reqId).map
          resetStatus := OrderedMap.get_map_values _ _ _
    rw [mapped, get_erase_finished]
    unfold Desk.reset
    dsimp only
    rw [desk_requests]
    cases found : scheduler.reqStatus.get? reqId with
    | none =>
        split
        · rfl
        · rfl
    | some status =>
        have member := (OrderedMap.get_eq_some_iff _ _ _).mp found
        by_cases finished : status.req.isFinished = true
        · rw [if_pos ⟨_, member, rfl, finished⟩]
          exact (if_pos finished).symm
        · rw [if_neg]
          · exact (if_neg finished).symm
          · rintro ⟨⟨other, otherStatus⟩, otherMember, rfl, otherFinished⟩
            have same := (OrderedMap.get_eq_some_iff _ _ _).mpr otherMember
            cases found.symm.trans same
            exact finished otherFinished
  exact congrArg (fun requests =>
    { (desk scheduler).reset.withManager manager with requests := requests }) requests

theorem reset_cache_reset {scheduler after : OffloadingConnectorScheduler M}
    (done : resetCache scheduler = .ok after) : Reset (desk scheduler) (desk after) := by
  by_cases idle : Idle scheduler
  · rw [reset_cache_eq idle] at done
    obtain ⟨manager, called, same⟩ := map_eq_ok.mp done
    obtain ⟨finished, calls, call⟩ := bind_eq_ok.mp called
    rw [← same, after_reset_desk]
    apply @Reset.reset M _ (desk scheduler) ((unsent scheduler.reqStatus.entries).map Prod.fst)
    · exact scheduler.reqStatus.nodup.sublist (List.filter_sublist.map Prod.fst)
    · intro reqId
      rw [List.mem_map]
      constructor
      · rintro ⟨⟨listed, status⟩, member, rfl⟩
        obtain ⟨present, flags⟩ := List.mem_filter.mp member
        have found := (OrderedMap.get_eq_some_iff _ _ _).mpr present
        exact ⟨_, tracked_of_status found, by simpa [reqBooks] using flags⟩
      · rintro ⟨request, tracked, finished, open_⟩
        obtain ⟨status, found, rfl⟩ := status_of_tracked tracked
        refine ⟨(reqId, status), List.mem_filter.mpr
          ⟨(OrderedMap.get_eq_some_iff _ _ _).mp found, ?_⟩, rfl⟩
        have finished : status.req.isFinished = true := finished
        have open_ : status.finishedSignaled = false := open_
        simp [finished, open_]
    · rw [List.filterMap_map]
      have contexts : (unsent scheduler.reqStatus.entries).filterMap
          ((fun reqId => ((desk scheduler).requests reqId).map ReqBooks.reqContext) ∘ Prod.fst) =
          (unsent scheduler.reqStatus.entries).map fun entry => entry.2.reqContext := by
        rw [← List.filterMap_eq_map]
        apply List.filterMap_congr
        intro entry member
        have found := (OrderedMap.get_eq_some_iff _ _ _).mpr (List.mem_of_mem_filter member)
        simp only [Function.comp_apply]
        rw [tracked_of_status found]
        rfl
      rw [contexts]
      exact calls
    · exact call
  · rw [reset_cache_raises idle] at done
    cases done

end Resets

end KvOffload.ConnectorMoves
