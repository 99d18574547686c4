import KvOffload.ConnectorBuilds

/-!
# The lookups of a build

With the mirror on, a step asks the manager about the chunks below the store pointer
after the manager has ended its step. The lookups are listed here with the manager each
of them finds, and what the calls of the build keep is kept by the whole build.
-/

namespace KvOffload.MirrorLookups

open KvOffload KvOffload.Base KvOffload.ConnectorConfig KvOffload.ConnectorRequests
open KvOffload.ManagerInterface KvOffload.ConnectorScheduler KvOffload.ConnectorStores
open KvOffload.LookupCalls KvOffload.ConnectorBuilds

set_option autoImplicit false

/-- A lookup with the manager it is made on. -/
structure MirrorLookup (M : Type) where
  manager : M
  key : OffloadKey
  reqContext : ReqContext

variable {M : Type}

namespace Offering

/-- The chunk is looked up before it is offered. -/
def asks (offering : Offering) (group : GroupOffloadConfig) (chunkIdx blockId offered : Nat) :
    Bool :=
  decide (blockId ≠ 0) &&
    isStoreReachableSwaChunk chunkIdx (offering.numChunks group) group.alignmentChunkCount
      group.slidingWindowSizeInChunks group.isEagleGroup &&
    (offering.settings.mirrorLocal &&
      decide (chunkIdx < (offering.state group).nextStoredChunkIdx)) &&
    !(decide (offering.settings.mirrorOfferCap ≠ 0) &&
      decide (offering.settings.mirrorOfferCap ≤ offered))

variable [OffloadingManager M] (offering : Offering)

def chunkLookups (group : GroupOffloadConfig) :
    Offers M → List (Nat × OffloadKey × Nat) → List (MirrorLookup M)
  | _, [] => []
  | offers, (chunkIdx, key, blockId) :: rest =>
      (if asks offering group chunkIdx blockId offers.offered then
        [⟨offers.manager, key, offering.status.reqContext⟩] else []) ++
      match offering.offerChunk group chunkIdx key blockId offers with
      | .error _ => []
      | .ok offers => chunkLookups group offers rest

def groupLookups : Offers M → List GroupOffloadConfig → List (MirrorLookup M)
  | _, [] => []
  | offers, group :: rest =>
      (if offering.numChunks group ≤ offering.startChunkIdx group then []
        else chunkLookups offering group offers (offering.chunks group)) ++
      match offering.offerGroup group offers with
      | .error _ => []
      | .ok offers => groupLookups offers rest

end Offering

variable [OffloadingManager M]

def requestLookups (output : SchedulerOutput) (build : StoreBuild M) (reqId : ReqId) :
    List (MirrorLookup M) :=
  match build.scheduler.reqStatus.get? reqId with
  | none => []
  | some status =>
      match numTokensAfterBatch output status.req with
      | .error _ => []
      | .ok numTokens =>
          let scheduler := build.scheduler
          let offering : Offering :=
            ⟨scheduler.config, scheduler.settings, status,
              status.calcNumOffloadableTokens scheduler.config numTokens⟩
          Offering.groupLookups offering ⟨scheduler.manager, build.offered, []⟩
            scheduler.config.kvGroupConfigs

def storeLookups (output : SchedulerOutput) :
    StoreBuild M → List ReqId → List (MirrorLookup M)
  | _, [] => []
  | build, reqId :: rest =>
      requestLookups output build reqId ++
      match storeRequest output build reqId with
      | .error _ => []
      | .ok build => storeLookups output build rest

/-- The build when the store jobs are about to be built. -/
def beforeStores (scheduler : OffloadingConnectorScheduler M) (output : SchedulerOutput) :
    Except PyError (StoreBuild M) := do
  let scheduler ← updateReqStates scheduler output
  let manager ← OffloadingManager.onScheduleEnd scheduler.manager
    ⟨output.newReqIds, output.preemptedReqIds⟩
  let scheduler ← flushPreempted (scheduler.withManager manager) output.preemptedReqIds
  buildPartialTailStoreJobs
    ⟨drainFlushJobs (flushReallocated scheduler), 0, OrderedMap.empty⟩ output

/-- All lookups that the build of a step makes. -/
def mirrorLookups (scheduler : OffloadingConnectorScheduler M) (output : SchedulerOutput) :
    List (MirrorLookup M) :=
  match beforeStores scheduler output with
  | .error _ => []
  | .ok build =>
      storeLookups output build (output.numScheduledTokens.keys ++ output.finishedReqIds)

/-- What the calls of a build keep, the listed lookups among them. -/
structure BuildKeeps (Inv : M → Prop) (asked : List (MirrorLookup M)) : Prop where
  looked : ∀ look ∈ asked, Inv look.manager → ∀ result after,
    OffloadingLookup.lookup look.manager look.key look.reqContext = .ok (result, after) →
      Inv after
  touched : ∀ manager keys, Inv manager → Inv (OffloadingLookup.touch manager keys)
  prepared : ∀ manager keys reqContext bypassThreshold output after, Inv manager →
    OffloadingManager.prepareStore manager keys reqContext bypassThreshold =
      .ok (output, after) → Inv after
  signaled : ∀ manager reqContext after, Inv manager →
    OffloadingManager.onRequestFinished manager reqContext = .ok after → Inv after

variable {Inv : M → Prop}

theorem keeps_fewer {asked fewer : List (MirrorLookup M)}
    (keeps : BuildKeeps Inv asked) (subset : ∀ look ∈ fewer, look ∈ asked) :
    BuildKeeps Inv fewer :=
  ⟨fun look member => keeps.looked look (subset look member), keeps.touched, keeps.prepared,
    keeps.signaled⟩

section Offers

variable {offering : Offering} {group : GroupOffloadConfig}

theorem offer_chunk_keeps {chunkIdx : Nat} {key : OffloadKey} {blockId : Nat}
    {offers last : Offers M}
    (keeps : BuildKeeps Inv (if Offering.asks offering group chunkIdx blockId offers.offered then
      [⟨offers.manager, key, offering.status.reqContext⟩] else []))
    (inv : Inv offers.manager)
    (offered : offering.offerChunk group chunkIdx key blockId offers = .ok last) :
    Inv last.manager := by
  unfold Offering.offerChunk at offered
  split at offered
  · cases offered
    exact inv
  · rename_i present
    split at offered
    · cases offered
      exact inv
    · rename_i reachable
      split at offered
      · rename_i below
        split at offered
        · cases offered
          exact inv
        · rename_i uncapped
          have isAsked : Offering.asks offering group chunkIdx blockId offers.offered = true := by
            unfold Offering.asks
            simp only [Bool.not_eq_false] at reachable
            rw [reachable, below.1, decide_eq_true below.2, decide_eq_true present]
            simp only [Bool.true_and, Bool.not_eq_true', Bool.and_eq_false_iff,
              decide_eq_false_iff_not]
            exact not_and_or.mp uncapped
          rw [if_pos isAsked] at keeps
          obtain ⟨⟨result, manager⟩, call, offered⟩ := bind_eq_ok.mp offered
          have looked := keeps.looked _ (List.mem_singleton_self _) inv result manager call
          dsimp only at offered
          split at offered
          · cases offered
            exact looked
          · cases offered
            exact looked
      · cases offered
        exact inv

theorem offer_chunks_keeps (chunks : List (Nat × OffloadKey × Nat)) {offers last : Offers M}
    (keeps : BuildKeeps Inv (Offering.chunkLookups offering group offers chunks))
    (inv : Inv offers.manager) (offered : offering.offerChunks group offers chunks = .ok last) :
    Inv last.manager := by
  induction chunks generalizing offers with
  | nil =>
      cases offered
      exact inv
  | cons chunk rest ih =>
      obtain ⟨middle, first, later⟩ := bind_eq_ok.mp offered
      unfold Offering.chunkLookups at keeps
      rw [first] at keeps
      apply ih _ _ later
      · exact keeps_fewer keeps fun look member => List.mem_append_right _ member
      · exact offer_chunk_keeps (keeps_fewer keeps fun look member =>
          List.mem_append_left _ member) inv first

theorem offer_groups_keeps (groups : List GroupOffloadConfig) {offers last : Offers M}
    (keeps : BuildKeeps Inv (Offering.groupLookups offering offers groups))
    (inv : Inv offers.manager) (offered : offering.offerGroups offers groups = .ok last) :
    Inv last.manager := by
  induction groups generalizing offers with
  | nil =>
      cases offered
      exact inv
  | cons group rest ih =>
      obtain ⟨middle, first, later⟩ := bind_eq_ok.mp offered
      unfold Offering.groupLookups at keeps
      rw [first] at keeps
      apply ih _ _ later
      · exact keeps_fewer keeps fun look member => List.mem_append_right _ member
      · unfold Offering.offerGroup at first
        split at first
        · cases first
          exact inv
        · rename_i some
          obtain ⟨_, _, offered⟩ := bind_eq_ok.mp first
          rw [if_neg some] at keeps
          exact offer_chunks_keeps _ (keeps_fewer keeps fun look member =>
            List.mem_append_left _ member) inv offered

end Offers

section Builds

variable {build after : StoreBuild M} {scheduler : OffloadingConnectorScheduler M}

theorem touch_keeps {status : RequestOffloadState} {manager last : M}
    (touched : ∀ manager keys, Inv manager → Inv (OffloadingLookup.touch manager keys))
    (inv : Inv manager) (done : scheduler.touch status manager = .ok last) : Inv last := by
  have folded : ∀ (groups : List GroupOffloadConfig) (manager : M), Inv manager →
      Inv (groups.foldl (fun manager group => OffloadingLookup.touch manager
        (OffloadingConnectorScheduler.touchedKeys group (status.groupStates group.groupIdx)))
          manager) := by
    intro groups
    induction groups with
    | nil => exact fun _ inv => inv
    | cons group rest ih => exact fun manager inv => ih _ (touched manager _ inv)
  have first := folded scheduler.config.kvGroupConfigs manager inv
  unfold OffloadingConnectorScheduler.touch at done
  dsimp only at done
  split at done
  · cases done
    exact first
  · obtain ⟨keys, _, done⟩ := bind_eq_ok.mp done
    cases done
    exact touched _ keys first

omit [OffloadingManager M] in
theorem enter_job_manager (build : StoreBuild M) (reqId : ReqId) (status : RequestOffloadState)
    (gpuSpec : GPULoadStoreSpec) (output : PrepareStoreOutput) (fenced deferred : List Nat) :
    (build.enterJob reqId status gpuSpec output fenced deferred).scheduler.manager =
      build.scheduler.manager := by
  have entered := enter_job_desk build reqId status gpuSpec output fenced deferred
  exact congrArg JobBooks.Desk.manager entered

omit [OffloadingManager M] in
theorem fence_blocks_manager (scheduler : OffloadingConnectorScheduler M) (jobId : JobId)
    (blockIds : List Nat) : (scheduler.fenceBlocks jobId blockIds).manager =
      scheduler.manager := by
  have fenced := ConnectorMoves.desk_fence_blocks scheduler jobId blockIds
  exact congrArg JobBooks.Desk.manager fenced

theorem store_offers_keeps {reqId : ReqId} {offering : Offering} {keys : List OffloadKey}
    (keeps : BuildKeeps Inv []) (inv : Inv build.scheduler.manager)
    (stored : storeOffers build reqId offering keys = .ok after) :
    Inv after.scheduler.manager := by
  unfold storeOffers at stored
  dsimp only at stored
  split at stored
  · cases stored
    exact inv
  · obtain ⟨⟨output, manager⟩, call, stored⟩ := bind_eq_ok.mp stored
    have prepared := keeps.prepared _ _ _ _ _ _ inv call
    cases output with
    | none =>
        cases stored
        exact prepared
    | some output =>
        dsimp only at stored
        split at stored
        · cases stored
          exact prepared
        · obtain ⟨last, touching, stored⟩ := bind_eq_ok.mp stored
          obtain ⟨gpuSpec, _, stored⟩ := bind_eq_ok.mp stored
          obtain ⟨_, _, stored⟩ := bind_eq_ok.mp stored
          have touched : Inv last := touch_keeps keeps.touched prepared touching
          dsimp only at stored
          split at stored
          · cases stored
            show Inv (OffloadingConnectorScheduler.manager _)
            rw [StoreBuild.withScheduler]
            show Inv (OffloadingConnectorScheduler.fenceBlocks _ _ _).manager
            rw [fence_blocks_manager, enter_job_manager]
            exact touched
          · cases stored
            rw [enter_job_manager]
            exact touched

theorem store_request_keeps {output : SchedulerOutput} {reqId : ReqId}
    (keeps : BuildKeeps Inv (requestLookups output build reqId))
    (inv : Inv build.scheduler.manager)
    (stored : storeRequest output build reqId = .ok after) :
    Inv after.scheduler.manager := by
  unfold storeRequest at stored
  unfold requestLookups at keeps
  split at stored
  · cases stored
    exact inv
  · rename_i status found
    obtain ⟨numTokens, counted, stored⟩ := bind_eq_ok.mp stored
    obtain ⟨offers, offered, stored⟩ := bind_eq_ok.mp stored
    rw [found] at keeps
    dsimp only at keeps
    rw [counted] at keeps
    have asked : Inv offers.manager := offer_groups_keeps _ (by exact keeps) (by exact inv)
      offered
    exact store_offers_keeps (keeps_fewer keeps (by simp)) (by exact asked) stored

theorem store_requests_keeps {output : SchedulerOutput} (reqIds : List ReqId)
    {build : StoreBuild M} (keeps : BuildKeeps Inv (storeLookups output build reqIds))
    (inv : Inv build.scheduler.manager)
    (stored : storeRequests output build reqIds = .ok after) :
    Inv after.scheduler.manager := by
  induction reqIds generalizing build with
  | nil =>
      cases stored
      exact inv
  | cons reqId rest ih =>
      obtain ⟨middle, first, later⟩ := bind_eq_ok.mp stored
      unfold storeLookups at keeps
      rw [first] at keeps
      apply ih _ _ later
      · exact keeps_fewer keeps fun look member => List.mem_append_right _ member
      · exact store_request_keeps (keeps_fewer keeps fun look member =>
          List.mem_append_left _ member) inv first

theorem partial_tail_keeps (handoffs : List (ReqId × List PartialTailOffload))
    {build : StoreBuild M} (keeps : BuildKeeps Inv []) (inv : Inv build.scheduler.manager)
    (built : buildPartialTailJobs build handoffs = .ok after) :
    Inv after.scheduler.manager := by
  induction handoffs generalizing build with
  | nil =>
      cases built
      exact inv
  | cons handoff rest ih =>
      obtain ⟨middle, first, later⟩ := bind_eq_ok.mp built
      apply ih _ later
      unfold partialTailJob at first
      dsimp only at first
      split at first
      · obtain ⟨_, _, first⟩ := bind_eq_ok.mp first
        obtain ⟨_, _, first⟩ := bind_eq_ok.mp first
        obtain ⟨_, _, first⟩ := bind_eq_ok.mp first
        obtain ⟨_, _, first⟩ := bind_eq_ok.mp first
        obtain ⟨_, _, first⟩ := bind_eq_ok.mp first
        obtain ⟨_, _, first⟩ := bind_eq_ok.mp first
        split at first
        · cases first
          exact inv
        · obtain ⟨keys, _, first⟩ := bind_eq_ok.mp first
          obtain ⟨_, _, first⟩ := bind_eq_ok.mp first
          obtain ⟨⟨output, manager⟩, call, first⟩ := bind_eq_ok.mp first
          have prepared := keeps.prepared _ _ _ _ _ _ inv call
          cases output with
          | none =>
              cases first
              exact prepared
          | some output =>
              dsimp only at first
              split at first
              · cases first
                exact prepared
              · obtain ⟨accepted, _, first⟩ := bind_eq_ok.mp first
                obtain ⟨gpuSpec, _, first⟩ := bind_eq_ok.mp first
                cases first
                rw [enter_job_manager]
                exact prepared
      · cases first

theorem signal_finished_keeps (reqIds : List ReqId)
    {scheduler after : OffloadingConnectorScheduler M} (keeps : BuildKeeps Inv [])
    (inv : Inv scheduler.manager) (signaled : signalFinished scheduler reqIds = .ok after) :
    Inv after.manager := by
  induction reqIds generalizing scheduler with
  | nil =>
      cases signaled
      exact inv
  | cons reqId rest ih =>
      unfold signalFinished at signaled
      split at signaled
      · exact ih inv signaled
      · obtain ⟨manager, call, signaled⟩ := bind_eq_ok.mp signaled
        have kept := keeps.signaled _ _ _ inv call
        dsimp only at signaled
        apply ih _ signaled
        split
        · exact kept
        · exact kept

theorem build_jobs_eq (scheduler : OffloadingConnectorScheduler M) (output : SchedulerOutput) :
    buildJobs scheduler output =
      (do buildStoreJobs (← beforeStores scheduler output) output) := by
  unfold buildJobs beforeStores
  simp only [bind_assoc]

/-- What the end of the manager's step establishes and the calls of the build keep. -/
theorem build_rule {after : OffloadingConnectorScheduler M} {output : SchedulerOutput}
    {connectorMeta : OffloadingConnectorMetadata}
    (ended : ∀ manager context after, OffloadingManager.onScheduleEnd manager context =
      .ok after → Inv after)
    (drained : ∀ manager : M, Inv manager → Inv (OffloadingManager.drainFlushJobIds manager).2)
    (keeps : BuildKeeps Inv (mirrorLookups scheduler output))
    (built : buildConnectorMeta scheduler output = .ok (connectorMeta, after)) :
    Inv after.manager := by
  rw [build_connector_meta_eq] at built
  obtain ⟨build, jobs, built⟩ := bind_eq_ok.mp built
  obtain ⟨signaled, signals, built⟩ := bind_eq_ok.mp built
  cases built
  have none : BuildKeeps Inv [] := keeps_fewer keeps (by simp)
  rw [build_jobs_eq] at jobs
  obtain ⟨before, beginning, stored⟩ := bind_eq_ok.mp jobs
  have start : Inv before.scheduler.manager := by
    obtain ⟨updated, recorded, beginning⟩ := bind_eq_ok.mp beginning
    obtain ⟨manager, call, beginning⟩ := bind_eq_ok.mp beginning
    obtain ⟨flushed, flushing, tails⟩ := bind_eq_ok.mp beginning
    have same : flushed.manager = manager :=
      congrArg JobBooks.Desk.manager (flush_preempted_desk _ flushing)
    have drainedInv : Inv (drainFlushJobs (flushReallocated flushed)).manager := by
      apply drained
      show Inv flushed.manager
      rw [same]
      exact ended _ _ _ call
    unfold buildPartialTailStoreJobs at tails
    split at tails
    · exact partial_tail_keeps _ none (by exact drainedInv) tails
    · cases tails
      exact drainedInv
  unfold mirrorLookups at keeps
  rw [beginning] at keeps
  have last := signal_finished_keeps _ none (store_requests_keeps _ keeps start stored) signals
  exact last

end Builds

end KvOffload.MirrorLookups
