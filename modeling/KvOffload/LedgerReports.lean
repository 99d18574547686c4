import KvOffload.DutifulManagers
import KvOffload.JobLedger

/-!
# Reports over the managers

What the manager is told of a job that all workers have reported. A CPU manager takes every
completion. The tiering manager takes those of loads; it takes a store's when it has no tier
or every key of the store is still in the primary tier, and raises when a key was retracted.
-/

namespace KvOffload.LedgerReports

open KvOffload KvOffload.Base KvOffload.PolicyInterface KvOffload.ConnectorConfig
open KvOffload.ConnectorRequests KvOffload.CpuManager KvOffload.Tiering KvOffload.PolicyMoves
open KvOffload.TieringOperations KvOffload.ManagerInterface KvOffload.ManagerRecords
open KvOffload.ConnectorScheduler KvOffload.ConnectorCompletion KvOffload.JobBooks
open KvOffload.JobInvariants KvOffload.ConnectorMoves KvOffload.ConnectorRuns
open KvOffload.JobLedger KvOffload.PinnedBlocks KvOffload.ManagerDuties
open KvOffload.DutifulManagers

set_option autoImplicit false

section Reports

variable {M : Type} [OffloadingManager M]

/-- Which completions a manager that keeps the account takes: all of loads that are held,
and those of stores of its own requests whose keys are fit. -/
structure Completes (Keeps : Account M) (own : ReqId → Prop)
    (Fit : M → List OffloadKey → Prop) : Prop where
  store_returns {manager : M} {loads : OffloadKey → Nat} {stores : ReqId → Nat}
    {active : ReqId → Prop} {keys : List OffloadKey} {reqContext : ReqContext}
    (keeps : Keeps manager loads stores active) (isOwn : own reqContext.reqId)
    (counted : 0 < stores reqContext.reqId) (fit : Fit manager keys) :
    ∃ after, OffloadingManager.completeStore manager keys reqContext = .ok after
  load_returns {manager : M} {loads : OffloadKey → Nat} {stores : ReqId → Nat}
    {active : ReqId → Prop} {keys : List OffloadKey} (keeps : Keeps manager loads stores active)
    (held : ∀ key, keys.count key ≤ loads key) :
    ∃ after, OffloadingManager.completeLoad manager keys = .ok after
  store_fit {manager after : M} {loads : OffloadKey → Nat} {stores : ReqId → Nat}
    {active : ReqId → Prop} {keys others : List OffloadKey} {reqContext : ReqContext}
    (keeps : Keeps manager loads stores active)
    (call : OffloadingManager.completeStore manager keys reqContext = .ok after)
    (fit : Fit manager others) : Fit after others
  load_fit {manager after : M} {loads : OffloadKey → Nat} {stores : ReqId → Nat}
    {active : ReqId → Prop} {keys others : List OffloadKey}
    (keeps : Keeps manager loads stores active)
    (call : OffloadingManager.completeLoad manager keys = .ok after)
    (fit : Fit manager others) : Fit after others

/-- Once a job is fully reported, no further report of it is one that workers make. -/
theorem reported_stays (reports : List (JobId × Int)) {numWorkers : Nat} {jobCounter jobId : JobId}
    {ledger : Ledger} (reportable : Reportable numWorkers jobCounter ledger reports)
    (full : ledger.reported jobId = numWorkers) :
    (ledger.noteAll numWorkers reports).reported jobId = numWorkers := by
  induction reports generalizing ledger with
  | nil => exact full
  | cons entry rest ih =>
      obtain ⟨⟨_, positive, room⟩, later⟩ := reportable
      have different : jobId ≠ entry.1 := by
        rintro rfl
        omega
      apply ih later
      show Function.update ledger.reported entry.1 _ jobId = _
      rw [Function.update_of_ne different]
      exact full

variable {Keeps : Account M} {own : ReqId → Prop} {Fit : M → List OffloadKey → Prop}

/-- The keys of the stores that these reports complete are fit. -/
def StoresFit (Fit : M → List OffloadKey → Prop)
    (scheduler : OffloadingConnectorScheduler (Logged M)) (ledger : Ledger)
    (reports : List (JobId × Int)) : Prop :=
  ∀ jobId job, scheduler.jobs.get? jobId = some job → job.isStore = true →
    (ledger.noteAll scheduler.config.numWorkers reports).reported jobId =
      scheduler.config.numWorkers → Fit scheduler.manager.inner job.keys

/-- The completion of a job in flight. -/
theorem completion_returns (completes : Completes Keeps own Fit)
    {books : Desk (Logged M)} {jobId : JobId} {job : TransferJobStatus} {request : ReqBooks}
    (accounted : Accounted (fun manager : Logged M => Keeps manager.inner) books)
    (found : books.jobs.get? jobId = some job)
    (tracked : books.requests job.reqId = some request) (isOwn : own job.reqId)
    (fit : job.isStore = true → Fit books.manager.inner job.keys) :
    ∃ after, completionCall books.manager job request.reqContext = .ok after := by
  have named := accounted.named job.reqId request tracked
  unfold completionCall
  by_cases isStore : job.isStore = true
  · have counted : 0 < openStores books.jobs job.reqId := by
      have one := weight_le_total (jobStores job.reqId) found
      rw [jobStores, if_pos ⟨isStore, rfl⟩] at one
      exact one
    obtain ⟨inner, returned⟩ := completes.store_returns accounted.keeps (named ▸ isOwn)
      (named ▸ counted) (fit isStore)
    rw [if_pos isStore]
    exact ⟨_, map_eq_ok.mpr ⟨inner, returned, rfl⟩⟩
  · obtain ⟨inner, returned⟩ := completes.load_returns accounted.keeps fun key => by
      have held := weight_le_total (jobLoads key) found
      rwa [jobLoads, if_neg isStore] at held
    rw [if_neg isStore]
    exact ⟨_, map_eq_ok.mpr ⟨inner, returned, rfl⟩⟩

/-- A report that is taken leaves the stores of later reports fit. -/
theorem report_fit (completes : Completes Keeps own Fit) {before after : Desk (Logged M)}
    {jobId : JobId} {count : Int} (report : Report jobId count before after)
    (accounted : Accounted (fun manager : Logged M => Keeps manager.inner) before) :
    (∀ reqId request, after.requests reqId = some request →
      ∃ earlier, before.requests reqId = some earlier) ∧
    (∀ other now, after.jobs.get? other = some now → ∃ job, before.jobs.get? other = some job ∧
      job.isStore = now.isStore ∧ job.keys = now.keys) ∧
    ∀ keys, Fit before.manager.inner keys → Fit after.manager.inner keys := by
  cases report with
  | stale _ =>
      exact ⟨fun _ request found => ⟨request, found⟩, fun _ now found => ⟨now, found, rfl, rfl⟩,
        fun _ fit => fit⟩
  | @partly job _ found _ =>
      refine ⟨fun _ request isRequest => ⟨request, isRequest⟩, fun other now isNow => ?_,
        fun _ fit => fit⟩
      have isNow := (OrderedMap.get_set ..).symm.trans isNow
      split at isNow
      · rename_i same
        cases isNow
        exact ⟨job, same ▸ found, rfl, rfl⟩
      · exact ⟨now, isNow, rfl, rfl⟩
  | @fully job request manager fences _ _ _ tracked _ call _ =>
      refine ⟨fun other now isNow => ?_, fun other now isNow => ?_, fun keys fit => ?_⟩
      · have isNow := (with_request_requests _ _ _).symm.trans isNow
        split at isNow
        · rename_i same
          exact ⟨request, same ▸ tracked⟩
        · exact ⟨now, isNow⟩
      · have isNow := (OrderedMap.get_erase ..).symm.trans isNow
        split at isNow
        · cases isNow
        · exact ⟨now, isNow, rfl, rfl⟩
      · unfold completionCall at call
        split at call
        · obtain ⟨inner, innerCall, rfl⟩ := map_eq_ok.mp call
          exact completes.store_fit accounted.keeps innerCall fit
        · obtain ⟨inner, innerCall, rfl⟩ := map_eq_ok.mp call
          exact completes.load_fit accounted.keeps innerCall fit

/-- Reports whose completions the manager takes only fail at a fence. -/
theorem update_output_raises (dutiful : Dutiful Keeps) (completes : Completes Keeps own Fit)
    (reports : List (JobId × Int)) {ledger : Ledger}
    {scheduler : OffloadingConnectorScheduler (Logged M)} {problem : PyError}
    (inv : BookInv ledger (desk scheduler))
    (accounted : Accounted (fun manager : Logged M => Keeps manager.inner) (desk scheduler))
    (isOwn : ∀ reqId request, (desk scheduler).requests reqId = some request → own reqId)
    (fit : StoresFit Fit scheduler ledger reports)
    (reportable : Reportable scheduler.config.numWorkers scheduler.jobCounter ledger reports)
    (failed : updateConnectorOutput scheduler reports = .error problem) :
    problem = .keyError .blockIdToPendingJobs := by
  induction reports generalizing ledger scheduler with
  | nil => cases failed
  | cons entry rest ih =>
      obtain ⟨⟨issued, positive, room⟩, later⟩ := reportable
      unfold updateConnectorOutput at failed
      cases reported : reportJob scheduler entry.1 entry.2 with
      | error raised =>
          rw [reported] at failed
          cases failed
          rcases report_job_error inv.jobs positive
            (fun live => reportable_job inv issued positive room live) reported with
            fence | ⟨job, status, found, closed, tracked, call⟩
          · exact fence
          · have isTracked := tracked_of_status tracked
            have pending := (inv.ledger.pending entry.1 job found).1
            have full : (ledger.note scheduler.config.numWorkers entry).reported entry.1 =
                scheduler.config.numWorkers := by
              have workers : (desk scheduler).numWorkers = scheduler.config.numWorkers := rfl
              show Function.update ledger.reported entry.1 _ entry.1 = _
              rw [Function.update_self]
              omega
            obtain ⟨after, returned⟩ := completion_returns completes accounted found isTracked
              (isOwn _ _ isTracked)
              fun isStore => fit entry.1 job found isStore (reported_stays rest later full)
            cases returned.symm.trans call
      | ok middle =>
          rw [reported, ok_bind] at failed
          obtain ⟨_, step⟩ := report_job_report reported
          obtain ⟨workers, counter⟩ := report_frame step
          have next := report_book_inv inv positive room step
          have isAccounted := report_accounted (recording_dutiful dutiful) step accounted inv.fences
          obtain ⟨requests, jobs, fits⟩ := report_fit completes step accounted
          change Reportable (desk scheduler).numWorkers (desk scheduler).jobCounter
            (ledger.note (desk scheduler).numWorkers entry) rest at later
          rw [← workers, ← counter] at later
          rw [← workers] at next
          refine ih next isAccounted (fun reqId request found => ?_) (fun jobId now isNow isStore
            full => ?_) later failed
          · obtain ⟨earlier, isEarlier⟩ := requests reqId request found
            exact isOwn reqId earlier isEarlier
          · obtain ⟨job, found, kind, keys⟩ := jobs jobId now isNow
            apply fits
            rw [← keys]
            have sameWorkers : middle.config.numWorkers = scheduler.config.numWorkers := workers
            change (Ledger.noteAll middle.config.numWorkers
              (ledger.note middle.config.numWorkers entry) rest).reported jobId =
                middle.config.numWorkers at full
            rw [sameWorkers] at full
            exact fit jobId job found (kind.trans isStore) full

end Reports

section Managers

variable {P : Type} [CachePolicy P] [LawfulCachePolicy P] [TrackedPolicy P]

theorem cpu_completes : Completes (CpuKeeps (P := P)) (fun _ => True) fun _ _ => True where
  store_returns {manager loads stores active keys reqContext} keeps _ _ _ := by
    obtain ⟨after, returned, _⟩ := complete_store_returns keeps.1 keys true
    exact ⟨after, returned⟩
  load_returns {manager loads stores active keys} keeps held :=
    complete_load_returns keys keeps.1 fun key _ => (held key).trans (keeps.2 key)
  store_fit _ _ _ := trivial
  load_fit _ _ _ := trivial

theorem tiering_completes (foreign : ReqId → Prop) (answers : Nat → TierAnswer) :
    Completes (TierKeeps (P := P) foreign answers) (fun reqId => ¬foreign reqId) Cascades where
  store_returns keeps isOwn counted fit := store_completion_returns keeps isOwn counted fit
  load_returns keeps held := load_completion_returns keeps held
  store_fit keeps call fit := store_completion_cascades keeps.backed.booked.pool call fit
  load_fit keeps call fit := load_completion_cascades keeps.backed.booked.pool call fit

theorem new_tier_keeps {foreign : ReqId → Prop} {policy : P}
    (tracked : TrackedPolicy.Tracked policy) (empty : ∀ key, CachePolicy.get policy key = none)
    (primaryParams : CpuManagerParams) (params : TieringParams) (tiers : List TierInfo)
    {answers : Nat → TierAnswer} (opens : AnswersOpen foreign answers) :
    TierKeeps foreign answers (TieringOffloadingManager.new params
      (CPUOffloadingManager.new primaryParams policy) tiers answers)
      (fun _ => 0) (fun _ => 0) fun _ => False := by
  refine ⟨⟨⟨new_steady primaryParams tracked empty, ?_, ?_⟩, fun key => ?_⟩, rfl, opens, ?_⟩
  · exact fun jobId job running => by cases running
  · exact fun key owner found => by cases found
  · have none : TransferBooks.storePins (TieringOffloadingManager.new params
        (CPUOffloadingManager.new primaryParams policy) tiers answers) = 0 :=
      FiniteTotals.map_total_empty _
    rw [none]
    simp
  · exact ⟨fun reqId _ => rfl, fun _ reqId _ isActive => isActive.elim⟩

end Managers

/-- Every run over any manager keeps the ledger. -/
def LedgersKept : Prop :=
  ∀ (M : Type) [OffloadingManager M] (config : SchedulerOffloadConfig)
    (settings : ConnectorSettings) (mambaAlignSize : Option Nat) (manager : M)
    (clock : StaleHitLadder.Clock) (state : RunState (Logged M)),
    EventRuns.Reaches RunState.apply RunState.Permitted
      (RunState.start config settings mambaAlignSize ⟨manager, {}⟩ clock) state → LedgerKept state

variable {P : Type} [CachePolicy P]

/-- Over a CPU manager reports only fail at a fence. -/
def CpuReportsTaken (policy : P) : Prop :=
  ∀ (config : SchedulerOffloadConfig) (settings : ConnectorSettings)
    (mambaAlignSize : Option Nat) (primaryParams : CpuManagerParams)
    (clock : StaleHitLadder.Clock) (state : RunState (Logged (CPUOffloadingManager P))),
    EventRuns.Reaches RunState.apply RunState.Permitted
      (RunState.start config settings mambaAlignSize
        ⟨CPUOffloadingManager.new primaryParams policy, {}⟩ clock) state →
    ∀ reports problem, state.Permitted (.updateConnectorOutput reports) →
      updateConnectorOutput state.scheduler reports = .error problem →
      problem = .keyError .blockIdToPendingJobs

/-- There is no tier, or every key of a store that the reports complete is in the primary
tier. -/
def StoresCascade (state : RunState (Logged (TieringOffloadingManager P)))
    (reports : List (JobId × Int)) : Prop :=
  StoresFit Cascades state.scheduler state.ledger reports

/-- Over a tiering manager reports whose stores cascade only fail at a fence; `foreign` ids
are those of the tiers. -/
def TierReportsTaken (policy : P) : Prop :=
  ∀ (config : SchedulerOffloadConfig) (settings : ConnectorSettings)
    (mambaAlignSize : Option Nat) (primaryParams : CpuManagerParams) (params : TieringParams)
    (tiers : List TierInfo) (answers : Nat → TierAnswer) (clock : StaleHitLadder.Clock)
    (foreign : ReqId → Bool) (state : RunState (Logged (TieringOffloadingManager P))),
    AnswersOpen (fun reqId => foreign reqId = true) answers →
    EventRuns.Reaches RunState.apply RunState.Permitted
      (RunState.start config settings mambaAlignSize ⟨TieringOffloadingManager.new params
        (CPUOffloadingManager.new primaryParams policy) tiers answers, {}⟩ clock) state →
    (∀ reqId ∈ state.known, foreign reqId = false) →
    ∀ reports problem, state.Permitted (.updateConnectorOutput reports) →
      StoresCascade state reports →
      updateConnectorOutput state.scheduler reports = .error problem →
      problem = .keyError .blockIdToPendingJobs

section Policies

variable [LawfulCachePolicy P] [TrackedPolicy P] {policy : P}

theorem cpu_reports_taken (tracked : TrackedPolicy.Tracked policy)
    (empty : ∀ key, CachePolicy.get policy key = none) : CpuReportsTaken policy := by
  intro config settings mambaAlignSize primaryParams clock state reaches reports problem permitted
    failed
  obtain ⟨_, accounted⟩ := reached_accounted (recording_dutiful (cpu_dutiful (P := P)))
    ⟨new_steady primaryParams tracked empty, fun _ => Nat.zero_le _⟩ reaches
  exact update_output_raises cpu_dutiful cpu_completes reports (reached_book_inv reaches) accounted
    (fun _ _ _ => trivial) (fun _ _ _ _ _ => trivial) permitted failed

theorem tier_reports_taken (tracked : TrackedPolicy.Tracked policy)
    (empty : ∀ key, CachePolicy.get policy key = none) : TierReportsTaken policy := by
  intro config settings mambaAlignSize primaryParams params tiers answers clock foreign state opens
    reaches own reports problem permitted cascade failed
  obtain ⟨known, accounted⟩ := reached_accounted
    (recording_dutiful (tiering_dutiful (P := P) (fun reqId => foreign reqId = true) answers))
    (new_tier_keeps tracked empty primaryParams params tiers opens) reaches
  refine update_output_raises (tiering_dutiful _ answers) (tiering_completes _ answers) reports
    (reached_book_inv reaches) accounted (fun reqId request found => ?_) cascade permitted failed
  simp [own reqId (known reqId request found)]

end Policies

/-- Every run keeps the ledger, and reports that the manager can take raise nothing but at a
missing fence. -/
theorem lru_and_arc_reports_taken (cacheCapacity : Nat) (rounding : FloatRounding.Rounding) :
    LedgersKept ∧ CpuReportsTaken (LruPolicy.LRUCachePolicy.new cacheCapacity) ∧
      CpuReportsTaken (ArcPolicy.ARCCachePolicy.new cacheCapacity rounding) ∧
      TierReportsTaken (LruPolicy.LRUCachePolicy.new cacheCapacity) ∧
      TierReportsTaken (ArcPolicy.ARCCachePolicy.new cacheCapacity rounding) := by
  have lruTracked : TrackedPolicy.Tracked (LruPolicy.LRUCachePolicy.new cacheCapacity) := by
    intro key
    simp [LruPolicy.LRUCachePolicy.new]
  have arcTracked := ArcRepresentation.new_inv cacheCapacity rounding
  refine ⟨fun M _ config settings mambaAlignSize manager clock state => ledger_kept,
    cpu_reports_taken lruTracked fun _ => rfl, cpu_reports_taken arcTracked fun _ => rfl,
    tier_reports_taken lruTracked fun _ => rfl, tier_reports_taken arcTracked fun _ => rfl⟩

section Example

def duoRequest (reqId : ReqId) (status : RequestStatus) : Request :=
  ⟨reqId, 4, 4, 0, [[0], [1]], status, false, .all, none⟩

/-- One tier, and a clock that stands at 0 for the first answers and at 100 afterwards. -/
def duoStart (early : Nat) : RunState (Logged (TieringOffloadingManager LruPolicy.LRUCachePolicy)) :=
  RunState.start (.fromSpec duoSpec) {} none
    ⟨.new { storePendingTtlSecs := 30 } (.new { numBlocks := 2 } (.new 2)) [{}]
      (TieringRuns.lateClock early), {}⟩
    ⟨fun _ => 0, 0⟩

/-- One worker reports the request's one job, the request ends, two steps pass and the next
request asks for the same tokens. -/
def duoEvents : List ConnectorEvent :=
  [.newRequest (duoRequest 0 .unfinished),
    .buildConnectorMeta
      { reqData := [⟨0, [[5, 6]], false⟩]
        newReqIds := [0]
        numScheduledTokens := OrderedMap.empty.set 0 4 },
    .updateConnectorOutput [(0, 1)],
    .requestFinished (duoRequest 0 .finished),
    .buildConnectorMeta { finishedReqIds := [0] },
    .buildConnectorMeta {},
    .newRequest (duoRequest 1 .unfinished),
    .getNumNewMatchedTokens 1 0]

/-- The other worker's report completes the store while its keys are in the primary tier. -/
theorem duo_report_taken :
    ∃ state after : RunState (Logged (TieringOffloadingManager LruPolicy.LRUCachePolicy)),
      state.Permitted (.updateConnectorOutput [(0, 1)]) ∧ StoresCascade state [(0, 1)] ∧
      (∀ problem, updateConnectorOutput state.scheduler [(0, 1)] = .error problem →
        problem = .keyError .blockIdToPendingJobs) ∧
      state.apply (.updateConnectorOutput [(0, 1)]) = .ok after ∧ LedgerKept after ∧
      after.ledger.settled = [0] ∧ after.scheduler.manager.completions.length = 1 ∧
      after.scheduler.reqStatus.keys = [1] := by
  have ran : (EventRuns.replay RunState.apply RunState.Permitted (duoStart 1000) duoEvents).map
      (fun state => (decide (state.Permitted (.updateConnectorOutput [(0, 1)])),
        state.scheduler.jobs.values.all fun job => job.keys.all fun key =>
          (state.scheduler.manager.inner.primaryTier.get key).isSome,
        (state.apply (.updateConnectorOutput [(0, 1)])).toOption.elim false fun after =>
          decide (after.ledger.settled = [0] ∧
            after.scheduler.manager.completions.length = 1 ∧
            after.scheduler.reqStatus.keys = [1]))) = some (true, true, true) := by
    decide +kernel
  obtain ⟨state, reaches, seen⟩ := EventRuns.exists_of_replay ran
  simp only [Prod.mk.injEq] at seen
  obtain ⟨isPermitted, resident, reported⟩ := seen
  have permitted := of_decide_eq_true isPermitted
  have taken := lru_and_arc_reports_taken 2 .exact
  have cascade : StoresCascade state [(0, 1)] := by
    intro jobId job found _ _
    have jobs := List.all_eq_true.mp resident job
      (List.mem_map_of_mem ((OrderedMap.get_eq_some_iff ..).mp found))
    exact .inr (List.all_eq_true.mp jobs)
  cases applied : state.apply (.updateConnectorOutput [(0, 1)]) with
  | error problem => simp [applied, Except.toOption] at reported
  | ok after =>
      rw [applied] at reported
      exact ⟨state, after, permitted, cascade,
        fun problem => taken.2.2.2.1 _ _ _ _ _ _ _ _ (fun _ => false) state
          (StoreReports.late_clock_opens _ 1000) reaches (fun _ _ => rfl) _ problem permitted cascade,
        applied, taken.1 _ _ _ _ _ _ after (reaches.tail ⟨_, permitted, applied⟩),
        of_decide_eq_true reported⟩

/-- The store's keys were retracted before its last report, which raises. -/
theorem retracted_duo_report_raises :
    ∃ state : RunState (Logged (TieringOffloadingManager LruPolicy.LRUCachePolicy)),
      EventRuns.Reaches RunState.apply RunState.Permitted (duoStart 20) state ∧
      state.Permitted (.updateConnectorOutput [(0, 1)]) ∧
      updateConnectorOutput state.scheduler [(0, 1)] = .error .assertionError := by
  have ran : (EventRuns.replay RunState.apply RunState.Permitted (duoStart 20) duoEvents).map
      (fun state => (decide (state.Permitted (.updateConnectorOutput [(0, 1)])),
        raised (updateConnectorOutput state.scheduler [(0, 1)]))) =
      some (true, some .assertionError) := by decide +kernel
  obtain ⟨state, reaches, seen⟩ := EventRuns.exists_of_replay ran
  simp only [Prod.mk.injEq] at seen
  obtain ⟨permitted, raises⟩ := seen
  exact ⟨state, reaches, of_decide_eq_true permitted, raised_eq_some.mp raises⟩

end Example

end KvOffload.LedgerReports
