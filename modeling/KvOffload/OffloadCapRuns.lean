import KvOffload.OffloadCapChecks
import KvOffload.FenceRuns

/-!
# The offload cap over whole runs

While every partial tail that is handed off for a capped request ends within the cap, no
store job covers a token behind it and the cap raises nowhere. A cap of zero counts as none
where the tails are checked, and a smaller cap than the tail's boundary fails an assertion.
-/

namespace KvOffload.OffloadCapRuns

open KvOffload KvOffload.Base KvOffload.PolicyInterface KvOffload.CpuManager KvOffload.Tiering
open KvOffload.ConnectorConfig KvOffload.ConnectorRequests KvOffload.ManagerInterface
open KvOffload.ConnectorScheduler KvOffload.ConnectorStores KvOffload.ConnectorMoves
open KvOffload.ConnectorRuns KvOffload.FenceRuns KvOffload.RequestRecords KvOffload.OffloadCaps
open KvOffload.OffloadCapBuilds KvOffload.OffloadCapChecks

set_option autoImplicit false

variable {M : Type}

section Lifted

/-- The request without its cap. -/
def uncapped (status : RequestOffloadState) : RequestOffloadState :=
  { status with maxOffloadTokens := none }

/-- The connector without the caps of its requests. -/
def liftCaps (scheduler : OffloadingConnectorScheduler M) : OffloadingConnectorScheduler M :=
  { scheduler with
    reqStatus := scheduler.reqStatus.mapValues fun _ status => uncapped status }

def liftBuild (build : StoreBuild M) : StoreBuild M :=
  build.withScheduler (liftCaps build.scheduler)

theorem lift_get (scheduler : OffloadingConnectorScheduler M) (reqId : ReqId) :
    (liftCaps scheduler).reqStatus.get? reqId =
      (scheduler.reqStatus.get? reqId).map uncapped :=
  OrderedMap.get_map_values _ _ _

theorem lift_fence_blocks (jobId : JobId) (blockIds : List Nat)
    (scheduler : OffloadingConnectorScheduler M) :
    liftCaps (scheduler.fenceBlocks jobId blockIds) =
      (liftCaps scheduler).fenceBlocks jobId blockIds := by
  induction blockIds generalizing scheduler with
  | nil => rfl
  | cons blockId rest ih => exact ih (scheduler.fence jobId blockId)

theorem lift_set_status (scheduler : OffloadingConnectorScheduler M) (reqId : ReqId)
    (status : RequestOffloadState) :
    liftCaps (scheduler.setStatus reqId status) =
      (liftCaps scheduler).setStatus reqId (uncapped status) :=
  congrArg (fun reqStatus => { scheduler with reqStatus := reqStatus })
    (OrderedMap.map_values_set ..)

theorem lift_enter_job (build : StoreBuild M) (reqId : ReqId) (status : RequestOffloadState)
    (gpuSpec : GPULoadStoreSpec) (output : PrepareStoreOutput) (fenced deferred : List Nat) :
    liftBuild (build.enterJob reqId status gpuSpec output fenced deferred) =
      (liftBuild build).enterJob reqId (uncapped status) gpuSpec output fenced deferred := by
  have entered := lift_set_status
    { build.scheduler with jobCounter := build.scheduler.jobCounter + 1 } reqId
    (status.withTransferJob build.scheduler.jobCounter)
  have fences := lift_fence_blocks build.scheduler.jobCounter fenced
    (({ build.scheduler with jobCounter := build.scheduler.jobCounter + 1 }).setStatus reqId
      (status.withTransferJob build.scheduler.jobCounter))
  rw [entered] at fences
  exact congrArg (fun scheduler : OffloadingConnectorScheduler M =>
    StoreBuild.mk (scheduler.withJob build.scheduler.jobCounter
      { reqId := reqId
        pendingCount := build.scheduler.config.numWorkers
        keys := output.keysToStore.dedup
        isStore := true
        deferredFenceBlockIds := deferred
        fencedBlockIds := fenced }) build.offered
      (build.storeJobs.set build.scheduler.jobCounter ⟨reqId, gpuSpec, output.storeSpec⟩)) fences

theorem bind_map_eq {ε α β γ : Type} {first : Except ε α} {next : α → Except ε β}
    {lifted : α → Except ε γ} {change : β → γ}
    (same : ∀ value, lifted value = (next value).map change) :
    (first >>= lifted) = (first >>= next).map change := by
  cases first with
  | error problem => rfl
  | ok value => exact same value

variable [OffloadingManager M]

theorem store_partial_tail_lifted (build : StoreBuild M) (reqId : ReqId)
    (status : RequestOffloadState) (entries : List PartialTailOffload) (boundary : Nat) :
    storePartialTail (liftBuild build) reqId (uncapped status) entries boundary =
      (storePartialTail build reqId status entries boundary).map liftBuild := by
  unfold storePartialTail
  apply bind_map_eq
  intro keys
  apply bind_map_eq
  intro _
  apply bind_map_eq
  rintro ⟨output, manager⟩
  cases output with
  | none => rfl
  | some output =>
      dsimp only
      split
      · rfl
      · apply bind_map_eq
        intro accepted
        apply bind_map_eq
        intro gpuSpec
        exact congrArg Except.ok (lift_enter_job (build.withScheduler
          (build.scheduler.withManager manager)) reqId status gpuSpec output _ []).symm

/-- A boundary within the cap passes the check exactly when it would without the cap. -/
theorem max_tail_boundary_lifted {status : RequestOffloadState} {boundary : Nat}
    (positive : 0 < boundary)
    (within : ∀ maxOffloadTokens, status.maxOffloadTokens = some maxOffloadTokens →
      boundary ≤ maxOffloadTokens) :
    boundary ≤ maxTailBoundary (uncapped status) ↔ boundary ≤ maxTailBoundary status := by
  unfold maxTailBoundary uncapped
  cases capped : status.maxOffloadTokens with
  | none => rfl
  | some maxOffloadTokens =>
      have bounded := within maxOffloadTokens capped
      simp only [Option.getD_none, Option.getD_some, if_true]
      rw [if_neg (by omega)]
      omega

theorem partial_tail_job_lifted {build : StoreBuild M} {reqId : ReqId}
    {entries : List PartialTailOffload} (within : HandoffWithin build.scheduler reqId entries) :
    partialTailJob (liftBuild build) reqId entries =
      (partialTailJob build reqId entries).map liftBuild := by
  have lifted : (liftBuild build).scheduler.reqStatus.get? reqId =
      (build.scheduler.reqStatus.get? reqId).map uncapped := lift_get build.scheduler reqId
  unfold partialTailJob
  dsimp only
  rw [lifted]
  cases found : build.scheduler.reqStatus.get? reqId with
  | none => rfl
  | some status =>
      cases entries with
      | nil => rfl
      | cons first rest =>
          dsimp only [Option.map_some]
          apply bind_map_eq
          intro _
          by_cases positive : 0 < first.boundary
          · have checked := max_tail_boundary_lifted positive
              fun maxOffloadTokens capped =>
                within status found maxOffloadTokens capped first (List.mem_cons_self ..)
            have stages : pyAssert (first.boundary ≤ maxTailBoundary (uncapped status)) =
                pyAssert (first.boundary ≤ maxTailBoundary status) := if_congr checked rfl rfl
            rw [stages]
            apply bind_map_eq
            intro _
            apply bind_map_eq
            intro _
            apply bind_map_eq
            intro _
            apply bind_map_eq
            intro _
            apply bind_map_eq
            intro _
            rw [apply_ite (Except.map liftBuild)]
            rw [← store_partial_tail_lifted]
            rfl
          · have stops : pyAssert (0 < first.boundary) = .error .assertionError :=
              if_neg positive
            rw [stops]
            rfl

variable [AcceptsOffered M]

theorem build_partial_tail_jobs_lifted (handoffs : List (ReqId × List PartialTailOffload))
    {build : StoreBuild M}
    (within : ∀ handoff ∈ handoffs, HandoffWithin build.scheduler handoff.1 handoff.2) :
    buildPartialTailJobs (liftBuild build) handoffs =
      (buildPartialTailJobs build handoffs).map liftBuild := by
  induction handoffs generalizing build with
  | nil => rfl
  | cons handoff rest ih =>
      have own := within handoff (List.mem_cons_self ..)
      unfold buildPartialTailJobs
      rw [partial_tail_job_lifted own]
      cases built : partialTailJob build handoff.1 handoff.2 with
      | error problem => rfl
      | ok middle =>
          apply ih
          intro other member
          exact handoff_within_follows (partial_tail_job_follows (handoff_within_fits own) built)
            (within other (List.mem_cons_of_mem _ member))

/-- The tails are offered, and raise, as they would without the caps. -/
theorem build_partial_tail_store_jobs_lifted {build : StoreBuild M} {output : SchedulerOutput}
    (within : ∀ handoff ∈ output.partialTailOffloads.entries,
      HandoffWithin build.scheduler handoff.1 handoff.2) :
    buildPartialTailStoreJobs (liftBuild build) output =
      (buildPartialTailStoreJobs build output).map liftBuild := by
  unfold buildPartialTailStoreJobs
  rw [apply_ite (Except.map liftBuild), ← build_partial_tail_jobs_lifted _ within]
  rfl

end Lifted

section Runs

variable [OffloadingManager M]

/-- Between two calls a request object only grows. -/
def RequestsGrow (scheduler : OffloadingConnectorScheduler M) : ConnectorEvent → Prop
  | .requestChanged req | .requestFinished req =>
      ∀ status ∈ scheduler.reqStatus.get? req.requestId, Grows status.req req
  | _ => True

/-- A partial tail as the scheduler core hands it off. -/
def TailPromised (config : SchedulerOffloadConfig) (req : Request)
    (entries : List PartialTailOffload) : Prop :=
  ∀ entry ∈ entries, 0 < entry.boundary ∧ entry.boundary % config.tokensPerHash = 0 ∧
    entry.boundary % config.partialTailBlockSize ≠ 0 ∧ entry.boundary ≤ req.numPromptTokens ∧
    ∀ other ∈ entries, other.boundary = entry.boundary

/-- What the scheduler core promises of an event. -/
def Promised (state : RunState M) (event : ConnectorEvent) : Prop :=
  state.Permitted event ∧ RequestsGrow state.scheduler event ∧
    match event with
    | .buildConnectorMeta output =>
        ∀ handoff ∈ output.partialTailOffloads.entries,
          ∀ status ∈ state.scheduler.reqStatus.get? handoff.1,
            TailPromised state.scheduler.config status.req handoff.2
    | _ => True

/-- The condition on a step: the tails that it hands off end within the caps. -/
def HandedWithin (state : RunState M) (event : ConnectorEvent) : Prop :=
  state.Permitted event ∧ RequestsGrow state.scheduler event ∧
    match event with
    | .buildConnectorMeta output =>
        ∀ handoff ∈ output.partialTailOffloads.entries,
          HandoffWithin state.scheduler handoff.1 handoff.2
    | _ => True

/-- What holds of the records of the connector in a run. -/
structure CapBooks (config : SchedulerOffloadConfig) (known : Finset ReqId)
    (scheduler : OffloadingConnectorScheduler M) : Prop where
  config_eq : scheduler.config = config
  tracked : ∀ reqId status, scheduler.reqStatus.get? reqId = some status → reqId ∈ known
  owners : ∀ jobId job, scheduler.jobs.get? jobId = some job → job.reqId ∈ known
  caps : ∀ reqId status, scheduler.reqStatus.get? reqId = some status →
    status.maxOffloadTokens = requestedCap status.req
  within : ∀ jobId job, scheduler.jobs.get? jobId = some job → job.isStore = true →
    ∀ status, scheduler.reqStatus.get? job.reqId = some status →
      WithinCap config status job.keys

omit [OffloadingManager M] in
theorem cap_books_follows {config : SchedulerOffloadConfig} {known : Finset ReqId}
    {before after : OffloadingConnectorScheduler M} (books : CapBooks config known before)
    (follows : Follows capRule before after) : CapBooks config known after where
  config_eq := follows.config.trans books.config_eq
  tracked := by
    intro reqId later found
    obtain ⟨earlier, foundEarlier, _⟩ := follows.requests reqId later found
    exact books.tracked reqId earlier foundEarlier
  owners := by
    intro jobId job found
    rcases follows.jobs jobId job found with ⟨old, foundOld, same⟩ | ⟨⟨earlier, found⟩, _⟩
    · exact same.1 ▸ books.owners jobId old foundOld
    · exact books.tracked job.reqId earlier found
  caps := by
    intro reqId later found
    obtain ⟨earlier, foundEarlier, kept⟩ := follows.requests reqId later found
    have asked : requestedCap later.req = requestedCap earlier.req :=
      congrArg (fun parameter : Option Int => parameter.bind fun raw =>
        if 0 ≤ raw then some raw.toNat else none) kept.req.parameter
    rw [kept.cap, asked]
    exact books.caps reqId earlier foundEarlier
  within := by
    intro jobId job found isStore later foundLater
    rcases follows.jobs jobId job found with ⟨old, foundOld, same⟩ | ⟨_, within⟩
    · obtain ⟨earlier, foundEarlier, kept⟩ := follows.requests _ later foundLater
      rw [← same.2.1]
      exact kept_within_cap kept (books.within jobId old foundOld (same.2.2.trans isStore) earlier
        (same.1 ▸ foundEarlier))
    · rw [← books.config_eq, ← follows.config]
      exact within isStore later foundLater

omit [OffloadingManager M] in
theorem cap_books_wider {config : SchedulerOffloadConfig} {known wider : Finset ReqId}
    {scheduler : OffloadingConnectorScheduler M} (books : CapBooks config known scheduler)
    (subset : known ⊆ wider) : CapBooks config wider scheduler where
  config_eq := books.config_eq
  tracked := fun reqId status found => subset (books.tracked reqId status found)
  owners := fun jobId job found => subset (books.owners jobId job found)
  caps := books.caps
  within := books.within

theorem on_new_request_cap_books {config : SchedulerOffloadConfig} {known : Finset ReqId}
    {scheduler : OffloadingConnectorScheduler M} {req : Request}
    (books : CapBooks config known scheduler) (fresh : req.requestId ∉ known) :
    CapBooks config (insert req.requestId known) (scheduler.onNewRequest req) := by
  have written : ∀ reqId, (scheduler.onNewRequest req).reqStatus.get? reqId =
      if reqId = req.requestId then some (RequestOffloadState.new req (createReqContext req)
        (OffloadingManager.onNewRequest scheduler.manager (createReqContext req)).1)
      else scheduler.reqStatus.get? reqId := fun reqId => OrderedMap.get_set ..
  constructor
  · exact books.config_eq
  · intro reqId status found
    rw [written] at found
    split at found
    · rename_i same
      exact same ▸ Finset.mem_insert_self ..
    · exact Finset.mem_insert_of_mem (books.tracked reqId status found)
  · exact fun jobId job found => Finset.mem_insert_of_mem (books.owners jobId job found)
  · intro reqId status found
    rw [written] at found
    split at found
    · cases found
      rfl
    · exact books.caps reqId status found
  · intro jobId job found isStore status foundStatus
    rw [written] at foundStatus
    split at foundStatus
    · rename_i same
      exact absurd (same ▸ books.owners jobId job found) fresh
    · exact books.within jobId job found isStore status foundStatus

variable [AcceptsOffered M]

theorem reached_cap_books {config : SchedulerOffloadConfig} {settings : ConnectorSettings}
    {mambaAlignSize : Option Nat} {manager : M} {clock : StaleHitLadder.Clock}
    {state : RunState M}
    (reaches : EventRuns.Reaches RunState.apply HandedWithin
      (RunState.start config settings mambaAlignSize manager clock) state) :
    CapBooks config state.known state.scheduler := by
  apply @EventRuns.reaches_invariant (RunState M) ConnectorEvent PyError RunState.apply
    HandedWithin (fun state => CapBooks config state.known state.scheduler) _ state ?_ _ reaches
  · intro before event after books permitted applied
    obtain ⟨isPermitted, grows, within⟩ := permitted
    cases event with
    | newRequest req =>
        cases applied
        exact on_new_request_cap_books books isPermitted
    | requestChanged req =>
        cases applied
        exact cap_books_follows books (request_changed_follows fun status found =>
          kept_with_request (grows status found))
    | getNumNewMatchedTokens reqId numComputedTokens =>
        obtain ⟨⟨answer, scheduler⟩, called, applied⟩ := bind_eq_ok.mp applied
        cases applied
        exact cap_books_follows books (get_num_follows cap_rule_free called)
    | updateStateAfterAlloc reqId blocks numExternalTokens =>
        obtain ⟨scheduler, called, applied⟩ := bind_eq_ok.mp applied
        cases applied
        exact cap_books_follows books (update_state_after_alloc_follows (fun status _ _ =>
          kept_skip_hit_chunks _ status _) called)
    | buildConnectorMeta output =>
        obtain ⟨⟨connectorMeta, scheduler⟩, called, applied⟩ := bind_eq_ok.mp applied
        cases applied
        exact cap_books_follows books (build_connector_meta_follows within called)
    | updateConnectorOutput completedJobs =>
        obtain ⟨scheduler, called, applied⟩ := bind_eq_ok.mp applied
        cases applied
        exact cap_books_follows books (update_connector_output_follows _ called)
    | requestFinished req =>
        obtain ⟨scheduler, called, applied⟩ := bind_eq_ok.mp applied
        cases applied
        exact cap_books_wider (cap_books_follows books (request_finished_follows (fun status found =>
          kept_with_request (grows status found)) called))
          (Finset.subset_insert ..)
    | resetCache =>
        obtain ⟨scheduler, called, applied⟩ := bind_eq_ok.mp applied
        cases applied
        exact cap_books_follows books (reset_cache_follows called)
  · constructor
    · rfl
    · intro reqId status found
      cases found
    · intro jobId job found
      cases found
    · intro reqId status found
      cases found
    · intro jobId job found
      cases found

/-- The caps are kept: in the store jobs on record, and in the next build. Its tails are
offered, and raise, as without the caps; its chunks are offered where they would be if no
check looked at a cap, and the spec of what is accepted is always made. -/
structure CapsKept (state : RunState M) : Prop where
  jobs : ∀ jobId job, state.scheduler.jobs.get? jobId = some job → job.isStore = true →
    ∃ status, state.scheduler.reqStatus.get? job.reqId = some status ∧
      ∀ maxOffloadTokens, requestedCap status.req = some maxOffloadTokens →
        ∀ key ∈ job.keys, ∃ stop, EndsAt state.scheduler.config status key stop ∧
          stop ≤ maxOffloadTokens
  tails : ∀ output begun, HandedWithin state (.buildConnectorMeta output) →
    beforeTails state.scheduler output = .ok begun →
      buildPartialTailStoreJobs (liftBuild ⟨begun, 0, OrderedMap.empty⟩) output =
        (buildPartialTailStoreJobs ⟨begun, 0, OrderedMap.empty⟩ output).map liftBuild
  stores : ∀ output begun build stored, beforeTails state.scheduler output = .ok begun →
    buildPartialTailStoreJobs ⟨begun, 0, OrderedMap.empty⟩ output = .ok build →
      buildKnownStoreJobs build output = .ok stored → buildStoreJobs build output = .ok stored
  specs : ∀ (offering : Offering) keysToStore,
    ∃ gpuSpec, offering.storeSpec keysToStore = .ok gpuSpec

end Runs

section Tails

/-- A prompt of six tokens with its cap. -/
def tailRequest (maxOffloadTokens : Int) : Request :=
  ⟨0, 7, 6, 0, [[0], [1], [2]], .unfinished, false, .all, some maxOffloadTokens⟩

def tailStart : RunState (CPUOffloadingManager LruPolicy.LRUCachePolicy) :=
  RunState.start (.fromSpec tailSpec) {} none (.new { numBlocks := 4 } (.new 4)) ⟨fun _ => 0, 0⟩

/-- The step that computes the prompt and hands off its last two tokens. -/
def tailOutput : SchedulerOutput where
  reqData := [⟨0, [[1, 2], [3, 4]], false⟩]
  newReqIds := [0]
  numScheduledTokens := OrderedMap.empty.set 0 6
  partialTailOffloads := OrderedMap.empty.set 0 [⟨1, 9, 6⟩]

instance (before after : Request) : Decidable (Grows before after) :=
  decidable_of_iff (before.blockHashes <+: after.blockHashes ∧
      after.maxOffloadTokens = before.maxOffloadTokens)
    ⟨fun both => ⟨both.1, both.2⟩, fun grows => ⟨grows.hashes, grows.parameter⟩⟩

instance (scheduler : OffloadingConnectorScheduler M) (event : ConnectorEvent) :
    Decidable (RequestsGrow scheduler event) :=
  match event with
  | .requestChanged _ | .requestFinished _ =>
      inferInstanceAs (Decidable (∀ status ∈ _, Grows _ _))
  | .newRequest _ | .getNumNewMatchedTokens _ _ | .updateStateAfterAlloc _ _ _
  | .buildConnectorMeta _ | .updateConnectorOutput _ | .resetCache => .isTrue trivial

instance (state : RunState M) (event : ConnectorEvent) : Decidable (Promised state event) :=
  match event with
  | .buildConnectorMeta _ =>
      inferInstanceAs (Decidable (_ ∧ _ ∧ ∀ handoff ∈ _, ∀ status ∈ _, ∀ entry ∈ _, _ ∧ _))
  | .newRequest _ | .requestChanged _ | .getNumNewMatchedTokens _ _
  | .updateStateAfterAlloc _ _ _ | .updateConnectorOutput _ | .requestFinished _ | .resetCache =>
      inferInstanceAs (Decidable (_ ∧ _ ∧ True))

/-- Every key stands for some token. -/
theorem ends_at_pos {config : SchedulerOffloadConfig} {status : RequestOffloadState}
    {key : OffloadKey} {stop : Nat} (ends : EndsAt config status key stop) : 0 < stop := by
  cases ends with
  | chunk member _ =>
      have formed := config.well_formed _ member
      rw [formed.chunk_eq]
      exact Nat.mul_pos (Nat.succ_pos _) (Nat.mul_pos formed.block_pos config.blocks_pos)
  | tail _ positive _ _ => exact positive

instance (scheduler : OffloadingConnectorScheduler M) (reqId : ReqId)
    (entries : List PartialTailOffload) : Decidable (HandoffWithin scheduler reqId entries) :=
  inferInstanceAs (Decidable (∀ status ∈ scheduler.reqStatus.get? reqId,
    ∀ maxOffloadTokens ∈ status.maxOffloadTokens, ∀ entry ∈ entries,
      entry.boundary ≤ maxOffloadTokens))

instance (state : RunState M) (event : ConnectorEvent) : Decidable (HandedWithin state event) :=
  match event with
  | .buildConnectorMeta _ =>
      inferInstanceAs (Decidable (_ ∧ _ ∧ ∀ handoff ∈ _, HandoffWithin _ _ _))
  | .newRequest _ | .requestChanged _ | .getNumNewMatchedTokens _ _
  | .updateStateAfterAlloc _ _ _ | .updateConnectorOutput _ | .requestFinished _ | .resetCache =>
      inferInstanceAs (Decidable (_ ∧ _ ∧ True))

end Tails

end KvOffload.OffloadCapRuns
