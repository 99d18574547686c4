import KvOffload.ConnectorRuns
import KvOffload.LruPolicy

/-!
# The fence map over whole runs

In every state between calls a block is mapped to exactly the live store jobs that wait for
it. The last report of a job finds all its fences unless the job reads a block twice.
-/

namespace KvOffload.FenceRuns

open KvOffload KvOffload.Base KvOffload.ConnectorConfig KvOffload.ConnectorRequests
open KvOffload.ManagerInterface KvOffload.ConnectorScheduler KvOffload.ConnectorStores
open KvOffload.ConnectorCompletion KvOffload.JobBooks KvOffload.ConnectorMoves
open KvOffload.JobInvariants KvOffload.ConnectorRuns

set_option autoImplicit false

variable {M : Type}

/-- Loads fence no block. -/
def LoadsFree (books : Desk M) : Prop :=
  ∀ jobId job, books.jobs.get? jobId = some job → job.isStore = false →
    job.fencedBlockIds = [] ∧ job.deferredFenceBlockIds = []

structure FenceBooks (books : Desk M) : Prop where
  jobs : JobInv books
  fences : FenceInv books
  loads : LoadsFree books

theorem loads_free_enter {books : Desk M} (free : LoadsFree books) {reqId : ReqId}
    {request : ReqBooks} {job : TransferJobStatus} (fenced : List Nat)
    (own : job.isStore = false → job.fencedBlockIds = [] ∧ job.deferredFenceBlockIds = []) :
    LoadsFree (books.enter reqId request job fenced) := by
  intro jobId kept found isLoad
  rw [get_enter_job] at found
  split at found
  · cases found
    exact own isLoad
  · exact free jobId kept found isLoad

section Steps

variable [OffloadingManager M] {before after : Desk M} {lax : Prop}

theorem move_fence_books (move : Move lax before after) (inv : FenceBooks before) :
    FenceBooks after := by
  obtain ⟨jobs, fences⟩ := move_keeps move inv.jobs inv.fences
  refine ⟨jobs, fences, ?_⟩
  cases move with
  | looked _ _ _ => exact inv.loads
  | touched _ => exact inv.loads
  | loadIssued _ _ _ _ =>
      apply loads_free_enter
      · exact inv.loads
      · exact fun _ => ⟨rfl, rfl⟩
  | storeDeclined _ _ _ _ => exact inv.loads
  | storeIssued _ _ _ _ =>
      apply loads_free_enter
      · exact inv.loads
      · exact nofun
  | scheduleEnded _ => exact inv.loads
  | drained => exact inv.loads

theorem report_fence_books {jobId : JobId} {count : Int}
    (report : Report jobId count before after) (inv : FenceBooks before) : FenceBooks after := by
  obtain ⟨jobs, fences⟩ := report_keeps report inv.jobs inv.fences
  refine ⟨jobs, fences, ?_⟩
  cases report with
  | stale _ => exact inv.loads
  | @partly job _ found _ =>
      intro other now present isLoad
      have present := (OrderedMap.get_set ..).symm.trans present
      split at present
      · cases present
        exact inv.loads jobId job found isLoad
      · exact inv.loads other now present isLoad
  | fully _ _ _ _ _ _ _ =>
      intro other now present isLoad
      exact inv.loads other now (get_dropped present).2 isLoad

end Steps

/-- The map holds for a block exactly the live store jobs that read it as a window block,
or as another block of a finished request. -/
structure FencesExact (scheduler : OffloadingConnectorScheduler M) : Prop where
  no_empty : ∀ blockId jobIds, scheduler.blockIdToPendingJobs.get? blockId = some jobIds →
    jobIds ≠ ∅
  exact : ∀ blockId jobId,
    (∃ jobIds, scheduler.blockIdToPendingJobs.get? blockId = some jobIds ∧ jobId ∈ jobIds) ↔
      ∃ job status, scheduler.jobs.get? jobId = some job ∧ job.isStore = true ∧
        scheduler.reqStatus.get? job.reqId = some status ∧
        (blockId ∈ job.fencedBlockIds ∨
          blockId ∈ job.deferredFenceBlockIds ∧ status.req.isFinished = true)

theorem mem_fenced_of {job : TransferJobStatus} {isFinished : Bool} {blockId : Nat} :
    blockId ∈ fencedOf job isFinished ↔
      blockId ∈ job.fencedBlockIds ∨ blockId ∈ job.deferredFenceBlockIds ∧ isFinished = true := by
  unfold fencedOf
  rw [List.mem_append]
  cases isFinished <;> simp

theorem fences_exact_of_books {scheduler : OffloadingConnectorScheduler M}
    (inv : FenceBooks (desk scheduler)) : FencesExact scheduler := by
  refine ⟨inv.fences.no_empty, fun blockId jobId => (inv.fences.exact blockId jobId).trans ?_⟩
  constructor
  · rintro ⟨job, request, found, tracked, member⟩
    obtain ⟨status, statusFound, rfl⟩ := status_of_tracked tracked
    refine ⟨job, status, found, ?_, statusFound, mem_fenced_of.mp member⟩
    by_contra isLoad
    obtain ⟨fenced, deferred⟩ := inv.loads jobId job found (by simpa using isLoad)
    rw [fences_nothing fenced deferred] at member
    cases member
  · rintro ⟨job, status, found, _, statusFound, member⟩
    exact ⟨job, reqBooks status, found, tracked_of_status statusFound, mem_fenced_of.mpr member⟩

variable [OffloadingManager M]

theorem reached_fence_books {config : SchedulerOffloadConfig} {settings : ConnectorSettings}
    {mambaAlignSize : Option Nat} {manager : M} {clock : StaleHitLadder.Clock}
    {state : RunState M}
    (reaches : EventRuns.Reaches RunState.apply RunState.Permitted
      (RunState.start config settings mambaAlignSize manager clock) state) :
    FenceBooks (desk state.scheduler) := by
  apply @run_rule M _ True RunState.Permitted (fun _ books => FenceBooks books) _ state _ _ _ _
    _ _ _ _ reaches
  · exact fun state event permitted => ⟨permitted, served_only_lax state event⟩
  · exact fun _ _ _ inv move => move_fence_books move inv
  · intro _ before after inv signal
    obtain ⟨jobs, fences⟩ := signal_keeps signal inv.jobs inv.fences
    refine ⟨jobs, fences, ?_⟩
    cases signal with
    | signaled _ _ _ _ => exact inv.loads
  · intro _ before after reqId inv admits
    obtain ⟨jobs, fences⟩ := admit_keeps admits inv.jobs inv.fences
    refine ⟨jobs, fences, ?_⟩
    cases admits with
    | opened _ _ => exact inv.loads
    | passed _ _ => exact inv.loads
    | finished _ _ _ => exact inv.loads
  · exact fun _ _ _ _ _ inv _ _ _ report => report_fence_books report inv
  · intro _ before after inv reset
    obtain ⟨jobs, fences⟩ := reset_keeps reset inv.jobs
    refine ⟨jobs, fences, ?_⟩
    cases reset with
    | reset _ _ _ _ =>
        intro jobId job found
        cases found
  · exact fun reqId request found => by cases found
  · obtain ⟨jobs, fences⟩ := @start_books M config settings mambaAlignSize manager clock
    exact ⟨jobs, fences, nofun⟩

omit [OffloadingManager M] in
/-- All fences of a live job are there, so only a block that it reads twice is missed. -/
theorem drop_fences_result {scheduler told : OffloadingConnectorScheduler M}
    (inv : FenceBooks (desk scheduler)) {jobId : JobId} {job : TransferJobStatus}
    {status : RequestOffloadState} (found : scheduler.jobs.get? jobId = some job)
    (tracked : scheduler.reqStatus.get? job.reqId = some status)
    (same : told.blockIdToPendingJobs = scheduler.blockIdToPendingJobs) :
    ((fencedOf job status.req.isFinished).Nodup →
      ∃ after, dropFences told jobId job status.req.isFinished = .ok after) ∧
    (¬(fencedOf job status.req.isFinished).Nodup →
      dropFences told jobId job status.req.isFinished =
        .error (.keyError .blockIdToPendingJobs)) := by
  have owner := tracked_of_status tracked
  have removal := unfence_iff inv.fences found owner
  change (∃ after, SetMap.removeAll jobId scheduler.blockIdToPendingJobs
    (fencedOf job status.req.isFinished) = some after) ↔ _ at removal
  rw [drop_fences_eq, same]
  by_cases empty : scheduler.blockIdToPendingJobs.entries = []
  · have none := unfenced_of_empty inv.fences empty found owner
    change fencedOf job status.req.isFinished = [] at none
    rw [if_pos empty, none]
    exact ⟨fun _ => ⟨told, rfl⟩, fun repeated => absurd List.nodup_nil repeated⟩
  · rw [if_neg empty]
    constructor
    · intro distinct
      obtain ⟨fences, removed⟩ := removal.mpr distinct
      rw [removed]
      exact ⟨_, rfl⟩
    · intro repeated
      cases removed : SetMap.removeAll jobId scheduler.blockIdToPendingJobs
          (fencedOf job status.req.isFinished) with
      | none => rfl
      | some fences => exact absurd (removal.mp ⟨fences, removed⟩) repeated

/-- What the last report of a live job comes to, once the manager has taken it. -/
def LastReport (scheduler : OffloadingConnectorScheduler M) (jobId : JobId)
    (job : TransferJobStatus) (isFinished : Bool) : Prop :=
  if (fencedOf job isFinished).Nodup then
    ∃ after, reportJob scheduler jobId job.pendingCount = .ok after
  else reportJob scheduler jobId job.pendingCount = .error (.keyError .blockIdToPendingJobs)

theorem last_report {scheduler : OffloadingConnectorScheduler M}
    (inv : FenceBooks (desk scheduler)) {jobId : JobId} {job : TransferJobStatus}
    {status : RequestOffloadState} {manager : M}
    (found : scheduler.jobs.get? jobId = some job)
    (tracked : scheduler.reqStatus.get? job.reqId = some status) (waits : 0 < job.pendingCount)
    (call : completionCall scheduler.manager job status.reqContext = .ok manager) :
    LastReport scheduler jobId job status.req.isFinished := by
  have live := inv.jobs.live jobId job found
  obtain ⟨request, owner, listed⟩ := inv.jobs.owned jobId job found
  cases owner.symm.trans (tracked_of_status tracked)
  unfold LastReport
  rw [report_job_closes waits live found (sub_self _) tracked, call, ok_bind]
  dsimp only
  obtain ⟨clean, missed⟩ := @drop_fences_result M scheduler (told (scheduler.withJob jobId
    { job with pendingCount := job.pendingCount - job.pendingCount })
    { job with pendingCount := job.pendingCount - job.pendingCount } manager) inv jobId job status
    found tracked rfl
  split
  · rename_i distinct
    obtain ⟨unfenced, dropped⟩ := clean distinct
    obtain ⟨after, done, _⟩ := @drop_job_ok M unfenced jobId job.reqId status listed
    exact ⟨after, bind_eq_ok.mpr ⟨unfenced, dropped, done⟩⟩
  · rename_i repeated
    have raised := missed repeated
    change dropFences _ jobId { job with pendingCount := job.pendingCount - job.pendingCount }
      status.req.isFinished = _ at raised
    rw [raised]
    rfl

/-- In every run the fence map is exact between calls, and the last report of a live job
misses no fence if and only if the job reads no block twice. -/
theorem fences_exact {config : SchedulerOffloadConfig} {settings : ConnectorSettings}
    {mambaAlignSize : Option Nat} {manager : M} {clock : StaleHitLadder.Clock}
    {state : RunState M}
    (reaches : EventRuns.Reaches RunState.apply RunState.Permitted
      (RunState.start config settings mambaAlignSize manager clock) state) :
    FencesExact state.scheduler ∧ ∀ jobId job status manager,
      state.scheduler.jobs.get? jobId = some job →
      state.scheduler.reqStatus.get? job.reqId = some status → 0 < job.pendingCount →
      completionCall state.scheduler.manager job status.reqContext = .ok manager →
      LastReport state.scheduler jobId job status.req.isFinished := by
  have inv := reached_fence_books reaches
  exact ⟨fences_exact_of_books inv, fun jobId job status manager found tracked waits call =>
    last_report inv found tracked waits call⟩

def slideGroups : List OffloadingGroupConfig := [⟨2, 0⟩]

/-- One sliding-window group whose window is a block of two tokens. -/
def slideSpec : OffloadingSpec where
  groups := slideGroups
  kvCacheGroups := [⟨.slidingWindow 2 Nat.two_pos, false⟩]
  blocksPerChunk := 1
  tokensPerHash := 2
  worldSize := 1
  decodeContextParallelSize := 1
  offloadPromptOnly := false
  useEagle := false
  ordered := by decide
  bounded := by decide
  blocks_pos := Nat.one_pos
  hash_pos := Nat.two_pos
  hash_fits := by decide

def slideRequest (numComputedTokens : Nat) : Request :=
  ⟨0, 8, 8, numComputedTokens, [[0], [1], [2], [3]], .unfinished, false, .all, none⟩

/-- Two CPU blocks, so the third chunk evicts the first. -/
def slideStart : RunState (CpuManager.CPUOffloadingManager LruPolicy.LRUCachePolicy) :=
  RunState.start (.fromSpec slideSpec) {} none (.new { numBlocks := 2 } (.new 2)) ⟨fun _ => 0, 0⟩

/-- A step that computes two tokens into a block; its job is then reported. -/
def slideStep (numComputedTokens blockId : Nat) (jobId : JobId) : List ConnectorEvent :=
  [.requestChanged (slideRequest numComputedTokens),
    .buildConnectorMeta
      { reqData := [⟨0, [[blockId]], false⟩]
        numScheduledTokens := OrderedMap.empty.set 0 2 },
    .updateConnectorOutput [(jobId, 1)]]

/-- The first block left the window and is handed out again for the fourth chunk. -/
def slideEvents : List ConnectorEvent :=
  .newRequest (slideRequest 0) :: slideStep 0 1 0 ++ slideStep 2 2 1 ++ slideStep 4 3 2 ++
    (slideStep 6 1 3).take 2

/-- The last job stores the evicted first chunk again, so it reads the reused block twice,
and its report raises. -/
theorem reused_block_raises :
    ∃ state, EventRuns.Reaches RunState.apply RunState.Permitted slideStart state ∧
      state.Permitted (.updateConnectorOutput [(3, 1)]) ∧
      updateConnectorOutput state.scheduler [(3, 1)] =
        .error (.keyError .blockIdToPendingJobs) := by
  have ran : (EventRuns.replay RunState.apply RunState.Permitted slideStart slideEvents).map
      (fun state => (decide (state.Permitted (.updateConnectorOutput [(3, 1)])),
        raised (updateConnectorOutput state.scheduler [(3, 1)]))) =
      some (true, some (.keyError .blockIdToPendingJobs)) := by decide +kernel
  obtain ⟨state, reaches, seen⟩ := EventRuns.exists_of_replay ran
  rw [Prod.mk.injEq] at seen
  exact ⟨state, reaches, of_decide_eq_true seen.1, raised_eq_some.mp seen.2⟩

/-- The third chunk's job reads one block, and the block waits for it. -/
theorem fresh_block_fenced :
    ∃ state : RunState (CpuManager.CPUOffloadingManager LruPolicy.LRUCachePolicy),
      FencesExact state.scheduler ∧ ∃ job isFinished,
        state.scheduler.jobs.get? 2 = some job ∧ LastReport state.scheduler 2 job isFinished ∧
        (state.scheduler.blockIdToPendingJobs.get? 3) = some {2} := by
  have ran : (EventRuns.replay RunState.apply RunState.Permitted slideStart
      (slideEvents.take 9)).map (fun state =>
        ((state.scheduler.jobs.get? 2).map fun job =>
          (decide (0 < job.pendingCount), (state.scheduler.reqStatus.get? job.reqId).map
            fun status => raised (completionCall state.scheduler.manager job status.reqContext)),
          state.scheduler.blockIdToPendingJobs.get? 3)) =
      some (some (true, some none), some {2}) := by decide +kernel
  obtain ⟨state, reaches, seen⟩ := EventRuns.exists_of_replay ran
  rw [Prod.mk.injEq] at seen
  obtain ⟨job, found, seenJob⟩ := Option.map_eq_some_iff.mp seen.1
  rw [Prod.mk.injEq] at seenJob
  obtain ⟨status, tracked, taken⟩ := Option.map_eq_some_iff.mp seenJob.2
  obtain ⟨manager, call⟩ := raised_eq_none.mp taken
  obtain ⟨exact_, last⟩ := fences_exact reaches
  exact ⟨state, exact_, job, status.req.isFinished, found,
    last 2 job status manager found tracked (of_decide_eq_true seenJob.1) call, seen.2⟩

end KvOffload.FenceRuns
