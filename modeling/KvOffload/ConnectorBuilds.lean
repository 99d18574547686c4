import KvOffload.ConnectorMoves

/-!
# The build of a step follows the job books

`build_connector_meta` records blocks, which the books do not show, then makes moves of
the books, and last signals the requests that have finished.
-/

namespace KvOffload.ConnectorBuilds

open KvOffload KvOffload.Base KvOffload.ConnectorConfig KvOffload.ConnectorRequests
open KvOffload.ManagerInterface KvOffload.ConnectorScheduler KvOffload.ConnectorStores
open KvOffload.LookupCalls KvOffload.JobBooks KvOffload.ConnectorMoves

set_option autoImplicit false

variable {M : Type}

section Blocks

variable {scheduler after : OffloadingConnectorScheduler M}

theorem record_blocks_desk {ends later : BlockIdEnds} {data : ReqData}
    (recorded : recordBlocks scheduler ends data = .ok (after, later)) :
    desk after = desk scheduler := by
  obtain ⟨status, found, recorded⟩ := bind_eq_ok.mp recorded
  have found := status_of_ok found
  dsimp only at recorded
  have cleared : reqBooks (if data.preempted then
      (status.updateOffloadKeys scheduler.config).clearBlockIds
      else status.updateOffloadKeys scheduler.config) = reqBooks status := by
    split
    · rfl
    · rfl
  split at recorded
  · cases recorded
    exact desk_set_same found cleared
  · obtain ⟨extended, updated, recorded⟩ := bind_eq_ok.mp recorded
    cases recorded
    exact desk_set_same found ((books_update_block_id_groups _ updated).trans cleared)

theorem record_all_blocks_desk (data : List ReqData)
    {scheduler : OffloadingConnectorScheduler M} {ends later : BlockIdEnds}
    (recorded : recordAllBlocks scheduler ends data = .ok (after, later)) :
    desk after = desk scheduler := by
  induction data generalizing scheduler ends with
  | nil =>
      cases recorded
      rfl
  | cons first rest ih =>
      obtain ⟨⟨middle, ends⟩, first, recorded⟩ := bind_eq_ok.mp recorded
      exact (ih recorded).trans (record_blocks_desk first)

theorem zero_stale_blocks_desk (scheduler : OffloadingConnectorScheduler M)
    (ends : BlockIdEnds) : desk (zeroStaleBlocks scheduler ends) = desk scheduler := by
  have requests : (fun reqId => ((zeroStaleBlocks scheduler ends).reqStatus.get? reqId).map
      reqBooks) = (desk scheduler).requests := by
    funext reqId
    have mapped : (zeroStaleBlocks scheduler ends).reqStatus.get? reqId =
        (scheduler.reqStatus.get? reqId).map _ := OrderedMap.get_map_values _ _ _
    rw [mapped, desk_requests, Option.map_map]
    rfl
  exact congrArg (fun requests => { desk scheduler with requests := requests }) requests

theorem update_req_states_desk {output : SchedulerOutput}
    (updated : updateReqStates scheduler output = .ok after) :
    desk after = desk scheduler := by
  obtain ⟨⟨recorded, ends⟩, recordings, updated⟩ := bind_eq_ok.mp updated
  cases updated
  exact (zero_stale_blocks_desk _ ends).trans (record_all_blocks_desk _ recordings)

theorem flush_preempted_desk (reqIds : List ReqId) {scheduler : OffloadingConnectorScheduler M}
    (flushed : flushPreempted scheduler reqIds = .ok after) :
    desk after = desk scheduler := by
  induction reqIds generalizing scheduler with
  | nil =>
      cases flushed
      rfl
  | cons reqId rest ih =>
      unfold flushPreempted at flushed
      split at flushed
      · exact ih flushed
      · obtain ⟨_, _, flushed⟩ := bind_eq_ok.mp flushed
        have later := ih flushed
        exact later

/-- A new store job in the books. -/
theorem enter_job_desk (build : StoreBuild M) (reqId : ReqId) (status : RequestOffloadState)
    (gpuSpec : GPULoadStoreSpec) (output : PrepareStoreOutput) (fenced deferred : List Nat) :
    desk (build.enterJob reqId status gpuSpec output fenced deferred).scheduler =
      (desk build.scheduler).enter reqId (reqBooks status)
        { reqId := reqId
          pendingCount := build.scheduler.config.numWorkers
          keys := output.keysToStore.dedup
          isStore := true
          deferredFenceBlockIds := deferred
          fencedBlockIds := fenced } fenced := by
  have kept := desk_fence_blocks ({ build.scheduler with
    jobCounter := build.scheduler.jobCounter + 1 }.setStatus reqId
      (status.withTransferJob build.scheduler.jobCounter)) build.scheduler.jobCounter fenced
  rw [desk_set_status] at kept
  unfold StoreBuild.enterJob OffloadingConnectorScheduler.generateJobId
  dsimp only
  exact congrArg (fun books => Desk.withJob books build.scheduler.jobCounter
    { reqId := reqId
      pendingCount := build.scheduler.config.numWorkers
      keys := output.keysToStore.dedup
      isStore := true
      deferredFenceBlockIds := deferred
      fencedBlockIds := fenced }) kept

end Blocks

variable [OffloadingManager M] {lax : Prop}

section Flags

/-- What a request is known by while it is served. -/
def flags (request : ReqBooks) : ReqContext × Bool × Bool :=
  (request.reqContext, request.finishedSignaled, request.isFinished)

omit [OffloadingManager M] in
/-- A new job changes no request but its own, and of that one only the jobs. -/
theorem enter_flags (books : Desk M) {reqId : ReqId} {request : ReqBooks}
    (tracked : books.requests reqId = some request) (job : TransferJobStatus)
    (fenced : List Nat) (other : ReqId) :
    ((books.enter reqId request job fenced).requests other).map flags =
      (books.requests other).map flags := by
  have updated : (books.enter reqId request job fenced).requests other =
      Function.update books.requests reqId (some { request with
        transferJobs := request.transferJobs.insert books.jobCounter }) other := rfl
  rw [updated, Function.update_apply]
  split
  · rename_i same
    rw [same, tracked]
    rfl
  · rfl

theorem move_flags {before after : Desk M} (move : Move lax before after) (reqId : ReqId) :
    (after.requests reqId).map flags = (before.requests reqId).map flags := by
  cases move with
  | looked _ _ _ => rfl
  | touched _ => rfl
  | loadIssued tracked _ _ _ => exact enter_flags _ (by exact tracked) _ _ reqId
  | storeDeclined _ _ _ _ => rfl
  | storeIssued tracked _ _ _ => exact enter_flags _ (by exact tracked) _ _ reqId
  | scheduleEnded _ => rfl
  | drained => rfl

theorem moves_flags {before after : Desk M} (moves : Moves lax before after) (reqId : ReqId) :
    (after.requests reqId).map flags = (before.requests reqId).map flags := by
  induction moves with
  | refl => rfl
  | tail _ move ih => exact (move_flags move reqId).trans ih

theorem moves_tracked {before after : Desk M} (moves : Moves lax before after) {reqId : ReqId}
    {request : ReqBooks} (tracked : after.requests reqId = some request) :
    ∃ earlier, before.requests reqId = some earlier ∧ flags earlier = flags request := by
  have same := moves_flags moves reqId
  rw [tracked] at same
  exact Option.map_eq_some_iff.mp same.symm

/-- Only a lax system serves these requests once their end was signaled. -/
def Served (lax : Prop) (books : Desk M) (reqIds : List ReqId) : Prop :=
  ∀ reqId ∈ reqIds, ∀ request, books.requests reqId = some request →
    request.finishedSignaled = true → lax

theorem served_moves {before after : Desk M} {reqIds : List ReqId}
    (served : Served lax before reqIds) (moves : Moves lax before after) :
    Served lax after reqIds := by
  intro reqId member request tracked signaled
  obtain ⟨earlier, found, same⟩ := moves_tracked moves tracked
  have kept : earlier.finishedSignaled = request.finishedSignaled :=
    congrArg (fun flags => flags.2.1) same
  exact served reqId member earlier found (kept.trans signaled)

/-- These requests have finished, as far as they are tracked. -/
def Ended (books : Desk M) (reqIds : List ReqId) : Prop :=
  ∀ reqId ∈ reqIds, ∀ request, books.requests reqId = some request → request.isFinished = true

theorem ended_moves {before after : Desk M} {reqIds : List ReqId}
    (ended : Ended before reqIds) (moves : Moves lax before after) : Ended after reqIds := by
  intro reqId member request tracked
  obtain ⟨earlier, found, same⟩ := moves_tracked moves tracked
  have kept : earlier.isFinished = request.isFinished := congrArg (fun flags => flags.2.2) same
  exact kept.symm.trans (ended reqId member earlier found)

omit [OffloadingManager M] in
theorem served_status {scheduler : OffloadingConnectorScheduler M} {reqIds : List ReqId}
    (served : Served lax (desk scheduler) reqIds) {reqId : ReqId} (member : reqId ∈ reqIds)
    {status : RequestOffloadState} (found : scheduler.reqStatus.get? reqId = some status) :
    status.finishedSignaled = true → lax :=
  served reqId member _ (tracked_of_status found)

end Flags

section PartialTail

variable {build after : StoreBuild M}

theorem store_partial_tail_moves {reqId : ReqId} {status : RequestOffloadState}
    {entries : List PartialTailOffload} {boundary : Nat}
    (found : build.scheduler.reqStatus.get? reqId = some status)
    (served : status.finishedSignaled = true → lax)
    (stored : storePartialTail build reqId status entries boundary = .ok after) :
    Moves lax (desk build.scheduler) (desk after.scheduler) := by
  obtain ⟨keys, _, stored⟩ := bind_eq_ok.mp stored
  obtain ⟨_, _, stored⟩ := bind_eq_ok.mp stored
  obtain ⟨⟨output, manager⟩, call, stored⟩ := bind_eq_ok.mp stored
  have tracked := tracked_of_status found
  cases output with
  | none =>
      cases stored
      exact .single (Move.storeDeclined tracked served call (by simp))
  | some output =>
      dsimp only at stored
      split at stored
      · rename_i nothing
        cases stored
        exact .single (Move.storeDeclined tracked served call (by simpa using nothing))
      · rename_i something
        obtain ⟨accepted, _, stored⟩ := bind_eq_ok.mp stored
        obtain ⟨gpuSpec, _, stored⟩ := bind_eq_ok.mp stored
        cases stored
        rw [enter_job_desk]
        apply Relation.ReflTransGen.single
        have issued := @Move.storeIssued M _ lax (desk build.scheduler) reqId _ keys false output
          manager ((accepted.insertionSort (· ≤ ·)).map (tailBlock build.scheduler.config status
            entries (boundary / build.scheduler.config.partialTailBlockSize))) [] tracked served
          call something
        rw [ite_self, List.append_nil] at issued
        exact issued

theorem partial_tail_job_moves {reqId : ReqId} {entries : List PartialTailOffload}
    (served : Served lax (desk build.scheduler) [reqId])
    (stored : partialTailJob build reqId entries = .ok after) :
    Moves lax (desk build.scheduler) (desk after.scheduler) := by
  unfold partialTailJob at stored
  dsimp only at stored
  split at stored
  · rename_i status first rest found
    obtain ⟨_, _, stored⟩ := bind_eq_ok.mp stored
    obtain ⟨_, _, stored⟩ := bind_eq_ok.mp stored
    obtain ⟨_, _, stored⟩ := bind_eq_ok.mp stored
    obtain ⟨_, _, stored⟩ := bind_eq_ok.mp stored
    obtain ⟨_, _, stored⟩ := bind_eq_ok.mp stored
    obtain ⟨_, _, stored⟩ := bind_eq_ok.mp stored
    split at stored
    · cases stored
      exact .refl
    · exact store_partial_tail_moves found (served_status served (by simp) found) stored
  · cases stored

theorem build_partial_tail_jobs_moves (handoffs : List (ReqId × List PartialTailOffload))
    {build : StoreBuild M} (served : Served lax (desk build.scheduler) (handoffs.map Prod.fst))
    (built : buildPartialTailJobs build handoffs = .ok after) :
    Moves lax (desk build.scheduler) (desk after.scheduler) := by
  induction handoffs generalizing build with
  | nil =>
      cases built
      exact .refl
  | cons handoff rest ih =>
      obtain ⟨reqId, entries⟩ := handoff
      obtain ⟨middle, stored, built⟩ := bind_eq_ok.mp built
      have first := partial_tail_job_moves (fun other member => served other (by
        rw [List.mem_singleton.mp member]
        exact List.mem_cons_self ..)) stored
      apply first.trans
      apply ih _ built
      exact fun other member => served_moves served first other (List.mem_cons_of_mem _ member)

theorem build_partial_tail_store_jobs_moves {output : SchedulerOutput}
    (served : Served lax (desk build.scheduler) output.partialTailOffloads.keys)
    (built : buildPartialTailStoreJobs build output = .ok after) :
    Moves lax (desk build.scheduler) (desk after.scheduler) := by
  unfold buildPartialTailStoreJobs at built
  split at built
  · exact build_partial_tail_jobs_moves _ served built
  · cases built
    exact .refl

end PartialTail

section Stores

variable {build after : StoreBuild M}

theorem offer_chunk_asked {offering : Offering} {group : GroupOffloadConfig} {chunkIdx : Nat}
    {key : OffloadKey} {blockId : Nat} {offers last : Offers M}
    (offered : offering.offerChunk group chunkIdx key blockId offers = .ok last) :
    Asked offering.status.reqContext offers.manager last.manager := by
  unfold Offering.offerChunk at offered
  split at offered
  · cases offered
    exact .refl
  · split at offered
    · cases offered
      exact .refl
    · split at offered
      · split at offered
        · cases offered
          exact .refl
        · obtain ⟨⟨result, manager⟩, call, offered⟩ := bind_eq_ok.mp offered
          dsimp only at offered
          split at offered
          · cases offered
            exact asked_lookup call
          · cases offered
            exact asked_lookup call
      · cases offered
        exact .refl

theorem offer_chunks_asked {offering : Offering} {group : GroupOffloadConfig}
    (chunks : List (Nat × OffloadKey × Nat)) {offers last : Offers M}
    (offered : offering.offerChunks group offers chunks = .ok last) :
    Asked offering.status.reqContext offers.manager last.manager := by
  induction chunks generalizing offers with
  | nil =>
      cases offered
      exact .refl
  | cons chunk rest ih =>
      obtain ⟨middle, first, offered⟩ := bind_eq_ok.mp offered
      exact (offer_chunk_asked first).trans (ih offered)

theorem offer_groups_asked {offering : Offering} (groups : List GroupOffloadConfig)
    {offers last : Offers M} (offered : offering.offerGroups offers groups = .ok last) :
    Asked offering.status.reqContext offers.manager last.manager := by
  induction groups generalizing offers with
  | nil =>
      cases offered
      exact .refl
  | cons group rest ih =>
      obtain ⟨middle, first, offered⟩ := bind_eq_ok.mp offered
      have first : Asked offering.status.reqContext offers.manager middle.manager := by
        unfold Offering.offerGroup at first
        split at first
        · cases first
          exact .refl
        · obtain ⟨_, _, first⟩ := bind_eq_ok.mp first
          exact offer_chunks_asked _ first
      exact first.trans (ih offered)

omit [OffloadingManager M] in
/-- The blocks of a store that wait for it from the start. -/
def fencedIds (offering : Offering) (keysToStore : List OffloadKey) : List Nat :=
  offering.sourceIds keysToStore fun group => group.slidingWindowSizeInChunks.isSome

omit [OffloadingManager M] in
/-- The blocks that wait for a store once the request has finished. -/
def deferredIds (offering : Offering) (keysToStore : List OffloadKey) : List Nat :=
  offering.sourceIds keysToStore fun group => group.slidingWindowSizeInChunks.isNone

omit [OffloadingManager M] in
/-- The store job of an offering, as the books keep it. -/
def storeJob (reqId : ReqId) (numWorkers : Nat) (offering : Offering)
    (output : PrepareStoreOutput) : TransferJobStatus where
  reqId := reqId
  pendingCount := numWorkers
  keys := output.keysToStore.dedup
  isStore := true
  deferredFenceBlockIds := deferredIds offering output.keysToStore
  fencedBlockIds := fencedIds offering output.keysToStore

/-- What enters the books for accepted keys, once the request's keys are touched. -/
theorem store_accepted_desk {reqId : ReqId} {offering : Offering} {output : PrepareStoreOutput}
    (stored : storeAccepted build reqId offering output = .ok after) :
    ∃ manager, Asked offering.status.reqContext build.scheduler.manager manager ∧
      desk after.scheduler = ((desk build.scheduler).withManager manager).enter reqId
        (reqBooks offering.status)
        (storeJob reqId build.scheduler.config.numWorkers offering output)
        (fencedIds offering output.keysToStore ++ if offering.status.req.isFinished then
          deferredIds offering output.keysToStore else []) := by
  obtain ⟨manager, touched, stored⟩ := bind_eq_ok.mp stored
  obtain ⟨gpuSpec, _, stored⟩ := bind_eq_ok.mp stored
  obtain ⟨_, _, stored⟩ := bind_eq_ok.mp stored
  refine ⟨manager, touch_asked _ touched, ?_⟩
  have entered := enter_job_desk (build.withScheduler (build.scheduler.withManager manager))
    reqId (offering.status.advanceStoredIdx offering.config offering.numOffloadableTokens)
    gpuSpec output (fencedIds offering output.keysToStore)
    (deferredIds offering output.keysToStore)
  dsimp only at stored
  split at stored
  · rename_i finished
    cases stored
    rw [if_pos finished]
    refine (desk_fence_blocks _ _ _).trans ?_
    unfold fencedIds deferredIds at entered
    rw [entered]
    unfold Desk.enter Desk.withFences SetMap.addAll
    rw [List.foldl_append]
    rfl
  · rename_i active
    cases stored
    rw [if_neg active, List.append_nil]
    exact entered

theorem store_offers_moves {reqId : ReqId} {offering : Offering} {keys : List OffloadKey}
    (found : build.scheduler.reqStatus.get? reqId = some offering.status)
    (served : offering.status.finishedSignaled = true → lax)
    (stored : storeOffers build reqId offering keys = .ok after) :
    Moves lax (desk build.scheduler) (desk after.scheduler) := by
  have tracked := tracked_of_status found
  unfold storeOffers at stored
  dsimp only at stored
  split at stored
  · cases stored
    apply settled_moves
    · exact .refl
    · exact found
    · rfl
  · obtain ⟨⟨output, manager⟩, call, stored⟩ := bind_eq_ok.mp stored
    cases output with
    | none =>
        cases stored
        exact .single (Move.storeDeclined tracked served call (by simp))
    | some output =>
        dsimp only at stored
        split at stored
        · rename_i nothing
          cases stored
          have declined : Move lax (desk build.scheduler) ((desk build.scheduler).withManager
              manager) := Move.storeDeclined tracked served call (by simpa using nothing)
          have settled : Moves lax (desk build.scheduler)
              (desk ((build.scheduler.withManager manager).setStatus reqId
                (offering.status.advanceStoredIdx offering.config
                  offering.numOffloadableTokens))) := by
            apply settled_moves
            · exact .single declined
            · exact found
            · rfl
          exact settled
        · rename_i something
          obtain ⟨last, asked, books⟩ := store_accepted_desk stored
          rw [books]
          have issued := @Move.storeIssued M _ lax (desk build.scheduler) reqId _ keys _ output
            manager (fencedIds offering output.keysToStore)
            (deferredIds offering output.keysToStore) tracked served call something
          apply Relation.ReflTransGen.head issued
          apply asked_moves
          · exact Function.update_self ..
          · exact served
          · exact asked

theorem store_request_moves {output : SchedulerOutput} {reqId : ReqId}
    (served : Served lax (desk build.scheduler) [reqId])
    (stored : storeRequest output build reqId = .ok after) :
    Moves lax (desk build.scheduler) (desk after.scheduler) := by
  unfold storeRequest at stored
  split at stored
  · cases stored
    exact .refl
  · rename_i status found
    have served := served_status served (List.mem_singleton_self reqId) found
    obtain ⟨numTokens, _, stored⟩ := bind_eq_ok.mp stored
    obtain ⟨offers, offered, stored⟩ := bind_eq_ok.mp stored
    have asked : Moves lax (desk build.scheduler)
        ((desk build.scheduler).withManager offers.manager) :=
      asked_moves (tracked_of_status found) served (offer_groups_asked _ offered)
    apply asked.trans
    have later := store_offers_moves (by exact found) served stored
    exact later

theorem store_requests_moves {output : SchedulerOutput} (reqIds : List ReqId)
    {build : StoreBuild M} (served : Served lax (desk build.scheduler) reqIds)
    (stored : storeRequests output build reqIds = .ok after) :
    Moves lax (desk build.scheduler) (desk after.scheduler) := by
  induction reqIds generalizing build with
  | nil =>
      cases stored
      exact .refl
  | cons reqId rest ih =>
      obtain ⟨middle, first, stored⟩ := bind_eq_ok.mp stored
      have first := store_request_moves (fun other member => served other (by
        rw [List.mem_singleton.mp member]
        exact List.mem_cons_self ..)) first
      apply first.trans
      apply ih _ stored
      exact fun other member => served_moves served first other (List.mem_cons_of_mem _ member)

end Stores

section Builds

variable {scheduler after : OffloadingConnectorScheduler M}

/-- The step up to the signals: what is recorded, flushed and stored. -/
def buildJobs (scheduler : OffloadingConnectorScheduler M) (output : SchedulerOutput) :
    Except PyError (StoreBuild M) := do
  let scheduler ← updateReqStates scheduler output
  let manager ← OffloadingManager.onScheduleEnd scheduler.manager
    ⟨output.newReqIds, output.preemptedReqIds⟩
  let scheduler ← flushPreempted (scheduler.withManager manager) output.preemptedReqIds
  let scheduler := drainFlushJobs (flushReallocated scheduler)
  let build ← buildPartialTailStoreJobs ⟨scheduler, 0, OrderedMap.empty⟩ output
  buildStoreJobs build output

omit [OffloadingManager M] in
def metaOf (build : StoreBuild M) : OffloadingConnectorMetadata where
  loadJobs := build.scheduler.currentBatchLoadJobs
  storeJobs := build.storeJobs
  jobsToFlush := build.scheduler.currentBatchJobsToFlush

theorem build_connector_meta_eq (scheduler : OffloadingConnectorScheduler M)
    (output : SchedulerOutput) :
    buildConnectorMeta scheduler output = (do
      let build ← buildJobs scheduler output
      let scheduler ← signalFinished build.scheduler output.finishedReqIds
      .ok (metaOf build, clearBatch scheduler)) := by
  unfold buildConnectorMeta buildJobs
  simp only [bind_assoc]
  rfl

theorem build_jobs_moves {output : SchedulerOutput} {build : StoreBuild M}
    (served : Served lax (desk scheduler) (output.partialTailOffloads.keys ++
      (output.numScheduledTokens.keys ++ output.finishedReqIds)))
    (built : buildJobs scheduler output = .ok build) :
    Moves lax (desk scheduler) (desk build.scheduler) := by
  obtain ⟨updated, recorded, built⟩ := bind_eq_ok.mp built
  obtain ⟨manager, call, built⟩ := bind_eq_ok.mp built
  obtain ⟨flushed, flushing, built⟩ := bind_eq_ok.mp built
  obtain ⟨tails, tail, stored⟩ := bind_eq_ok.mp built
  rw [← update_req_states_desk recorded] at served ⊢
  have ended : Moves lax (desk updated) (desk flushed) := by
    rw [flush_preempted_desk _ flushing]
    exact .single (Move.scheduleEnded call)
  have drained : Moves lax (desk updated) (desk (drainFlushJobs (flushReallocated flushed))) :=
    ended.tail (Move.drained (desk flushed))
  have tailServed := served_moves served drained
  have tailMoves := build_partial_tail_store_jobs_moves (fun reqId member =>
    tailServed reqId (List.mem_append_left _ member)) tail
  have storeServed := served_moves tailServed tailMoves
  have storeMoves := store_requests_moves _ (fun reqId member =>
    storeServed reqId (List.mem_append_right _ member)) stored
  exact drained.trans (tailMoves.trans storeMoves)

omit [OffloadingManager M] in
theorem signaled_flag {request kept : ReqBooks} (signaled : Desk.signaled request = some kept) :
    kept.isFinished = request.isFinished := by
  unfold Desk.signaled at signaled
  split at signaled
  · cases signaled
  · cases signaled
    rfl

theorem signal_finished_signals (reqIds : List ReqId)
    {scheduler : OffloadingConnectorScheduler M} (served : Served lax (desk scheduler) reqIds)
    (ended : Ended (desk scheduler) reqIds) (distinct : reqIds.Nodup ∨ lax)
    (signaled : signalFinished scheduler reqIds = .ok after) :
    Signals lax (desk scheduler) (desk after) := by
  induction reqIds generalizing scheduler with
  | nil =>
      cases signaled
      exact .refl
  | cons reqId rest ih =>
      have restDistinct : rest.Nodup ∨ lax := distinct.imp_left fun nodup =>
        (List.nodup_cons.mp nodup).2
      unfold signalFinished at signaled
      split at signaled
      · exact ih (fun other member => served other (List.mem_cons_of_mem _ member))
          (fun other member => ended other (List.mem_cons_of_mem _ member)) restDistinct signaled
      · rename_i status found
        obtain ⟨manager, call, signaled⟩ := bind_eq_ok.mp signaled
        dsimp only at signaled
        have books : desk (if status.transferJobs = [] then
            ((scheduler.withManager manager).setStatus reqId
              { status with finishedSignaled := true }).forget reqId
            else (scheduler.withManager manager).setStatus reqId
              { status with finishedSignaled := true }) =
            ((desk scheduler).withManager manager).withRequest reqId
              (Desk.signaled (reqBooks status)) := by
          by_cases idle : status.transferJobs = []
          · have gone : Desk.signaled (reqBooks status) = none := if_pos idle
            rw [if_pos idle, desk_forget, desk_set_status, gone]
            exact congrArg (fun requests =>
              { (desk scheduler).withManager manager with requests := requests })
              (Function.update_idem ..)
          · have kept : Desk.signaled (reqBooks status) =
                some { reqBooks status with finishedSignaled := true } := if_neg idle
            rw [if_neg idle, desk_set_status, kept]
            rfl
        have step := Signal.signaled (tracked_of_status found)
          (served_status served (List.mem_cons_self ..) found)
          (ended reqId (List.mem_cons_self ..) _ (tracked_of_status found)) call
        rw [← books] at step
        apply Relation.ReflTransGen.head step
        apply ih _ _ restDistinct signaled
        · intro other member request tracked flagged
          rw [books] at tracked
          change Function.update (desk scheduler).requests reqId _ other = some request at tracked
          rw [Function.update_apply] at tracked
          split at tracked
          · rename_i same
            rcases distinct with nodup | isLax
            · exact absurd (same ▸ member) (List.nodup_cons.mp nodup).1
            · exact isLax
          · exact served other (List.mem_cons_of_mem _ member) request tracked flagged
        · intro other member request tracked
          rw [books] at tracked
          change Function.update (desk scheduler).requests reqId _ other = some request at tracked
          rw [Function.update_apply] at tracked
          split at tracked
          · rw [signaled_flag tracked]
            exact ended reqId (List.mem_cons_self ..) _ (tracked_of_status found)
          · exact ended other (List.mem_cons_of_mem _ member) request tracked

/-- A step makes moves, then signals the requests that have finished. -/
theorem build_connector_meta_moves {output : SchedulerOutput}
    {connectorMeta : OffloadingConnectorMetadata}
    (served : Served lax (desk scheduler) (output.partialTailOffloads.keys ++
      (output.numScheduledTokens.keys ++ output.finishedReqIds)))
    (ended : Ended (desk scheduler) output.finishedReqIds)
    (distinct : output.finishedReqIds.Nodup ∨ lax)
    (built : buildConnectorMeta scheduler output = .ok (connectorMeta, after)) :
    ∃ build, buildJobs scheduler output = .ok build ∧ connectorMeta = metaOf build ∧
      Moves lax (desk scheduler) (desk build.scheduler) ∧
      Signals lax (desk build.scheduler) (desk after) := by
  rw [build_connector_meta_eq] at built
  obtain ⟨build, jobs, built⟩ := bind_eq_ok.mp built
  obtain ⟨signaled, signals, built⟩ := bind_eq_ok.mp built
  cases built
  have moves := build_jobs_moves served jobs
  refine ⟨build, jobs, rfl, moves, ?_⟩
  have later := signal_finished_signals _ (fun reqId member => served_moves served moves reqId
    (List.mem_append_right _ (List.mem_append_right _ member))) (ended_moves ended moves) distinct
    signals
  exact later

end Builds

end KvOffload.ConnectorBuilds
