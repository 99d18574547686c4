import KvOffload.LedgerReports
import KvOffload.ResetRuns
import KvOffload.TieringRecords

/-!
# Resets of the connector over its managers

A reset of the connector resets its manager. The CPU manager always takes that; the tiering
manager drains its tiers, and its tracker asserts that no job is open. A second reset changes
nothing when no job of the connector was in flight at the first.
-/

namespace KvOffload.ConnectorResets

open KvOffload KvOffload.Base KvOffload.PolicyInterface KvOffload.CpuManager KvOffload.Tiering
open KvOffload.TieringOperations KvOffload.TieringRuns KvOffload.ManagerInterface
open KvOffload.ManagerRecords KvOffload.ManagerDuties KvOffload.DutifulManagers
open KvOffload.PolicyMoves KvOffload.ReportTrail KvOffload.ReportRuns KvOffload.MeteredResets
open KvOffload.TieringRecords KvOffload.ConnectorConfig KvOffload.ConnectorRequests
open KvOffload.ConnectorScheduler KvOffload.ConnectorStores KvOffload.ConnectorCompletion
open KvOffload.JobBooks KvOffload.ConnectorMoves KvOffload.ConnectorRuns KvOffload.ResetRuns

set_option autoImplicit false

section Again

variable {P : Type} [CachePolicy P]

/-- A poll without reports only reads answers. -/
theorem poll_nothing (tiers : List Nat) {manager : TieringOffloadingManager P}
    (none : pollReports manager tiers = []) :
    ∃ answered, manager.pollTiers tiers = .ok { manager with answered := answered } := by
  induction tiers generalizing manager with
  | nil => exact ⟨manager.answered, rfl⟩
  | cons tierIdx rest ih =>
      obtain ⟨first, later⟩ := List.append_eq_nil_iff.mp none
      cases finished : manager.answer.finished with
      | cons result results =>
          rw [finished] at first
          cases first
      | nil =>
          rw [finished] at later
          obtain ⟨answered, polled⟩ := ih later
          refine ⟨answered, ?_⟩
          rw [TieringOffloadingManager.pollTiers, finished]
          exact polled

theorem process_nothing {manager : TieringOffloadingManager P} (none : reportsOf manager = [])
    (idle : manager.jobs = OrderedMap.empty)
    (unarmed : manager.storePendingDeadline = OrderedMap.empty) :
    ∃ answered, manager.processFinishedJobs = .ok { manager with answered := answered } := by
  obtain ⟨answered, polled⟩ := poll_nothing _ none
  unfold TieringOffloadingManager.processFinishedJobs
  rw [polled, ok_bind]
  have promotions : ∃ read, TieringOffloadingManager.expireStalePromotions
      { manager with answered := answered } = .ok { manager with answered := read } := by
    unfold TieringOffloadingManager.expireStalePromotions
    split
    · exact ⟨answered, rfl⟩
    · refine ⟨answered + 1, ?_⟩
      dsimp only
      rw [idle]
      rfl
  obtain ⟨read, expired⟩ := promotions
  rw [expired, ok_bind]
  unfold TieringOffloadingManager.expireStaleStorePends
  split
  · exact ⟨read, rfl⟩
  · refine ⟨read + 1, ?_⟩
    unfold TieringOffloadingManager.expiredStorePends
    dsimp only
    rw [unarmed]
    rfl

/-- What a reset leaves. -/
structure WasReset (manager : TieringOffloadingManager P) : Prop where
  jobs : manager.jobs = OrderedMap.empty
  deadlines : manager.storePendingDeadline = OrderedMap.empty
  owners : manager.storePendingOwner = OrderedMap.empty
  submissions : manager.pendingLoadSubmissions = OrderedMap.empty
  requests : ∀ entry ∈ manager.reqState.entries,
    entry.2.isFinished = false ∧ entry.2.pendingPrimaryStores = 0
  gate : manager.processedJobsThisStep = false
  primary : manager.primaryTier.resetCache = manager.primaryTier


omit [CachePolicy P] in
theorem reset_requests_entries (manager : TieringOffloadingManager P) :
    manager.resetRequests.reqState.entries =
      (manager.reqState.entries.filter fun entry => entry.2.isFinished = false).map
        fun entry => (entry.1, { entry.2 with pendingPrimaryStores := 0 }) := by
  have listed := OrderedMap.entries_set_all
    (fun state : RequestState => { state with pendingPrimaryStores := 0 })
    (manager.reqState.entries.filter fun entry => entry.2.isFinished = false) OrderedMap.empty
    (manager.reqState.keys_nodup.sublist (List.filter_sublist.map Prod.fst)) fun _ _ => rfl
  exact listed

theorem was_reset (settled : ∀ policy : P, CachePolicy.storedKeys (CachePolicy.clear policy) = [] ∧
      CachePolicy.clear (CachePolicy.clear policy) = CachePolicy.clear policy)
    {manager after : TieringOffloadingManager P} (reset : manager.resetCache = .ok after) :
    WasReset after := by
  obtain ⟨polled, _, reset⟩ := bind_eq_ok.mp reset
  obtain ⟨_, idle, done⟩ := bind_eq_ok.mp reset
  have noJobs : polled.jobs.entries = [] := by simpa using py_assert_eq_ok.mp idle
  generalize cleared_eq : ({ polled.withStorePends OrderedMap.empty OrderedMap.empty with
    pendingLoadSubmissions := OrderedMap.empty } : TieringOffloadingManager P) = cleared at done
  have core := reset_requests_core cleared
  have trail := reset_requests_same cleared
  cases done
  refine ⟨?_, ?_, ?_, ?_, ?_, rfl, ?_⟩
  · refine core.jobs.trans ?_
    rw [← cleared_eq]
    exact OrderedMap.ext_entries noJobs
  · exact core.deadlines.trans (by rw [← cleared_eq]; rfl)
  · exact trail.owners.trans (by rw [← cleared_eq]; rfl)
  · exact core.pending.trans (by rw [← cleared_eq])
  · intro entry member
    have member : entry ∈ cleared.resetRequests.reqState.entries := member
    rw [reset_requests_entries] at member
    obtain ⟨old, active, rfl⟩ := List.mem_map.mp member
    exact ⟨by simpa using (List.mem_filter.mp active).2, rfl⟩
  · obtain ⟨none, again⟩ := settled (cleared.resetRequests.primaryTier.resetEvents
      (CachePolicy.storedKeys cleared.resetRequests.primaryTier.policy)).policy
    exact cpu_reset_of_settled none again rfl rfl rfl rfl

omit [CachePolicy P] in
theorem reset_requests_again {manager : TieringOffloadingManager P}
    (active : ∀ entry ∈ manager.reqState.entries,
      entry.2.isFinished = false ∧ entry.2.pendingPrimaryStores = 0) :
    manager.resetRequests = manager := by
  have same : manager.resetRequests.reqState = manager.reqState := by
    apply OrderedMap.ext_entries
    rw [reset_requests_entries, List.filter_eq_self.mpr fun entry member => by
      simpa using (active entry member).1]
    refine (List.map_congr_left fun entry member => ?_).trans (List.map_id _)
    obtain ⟨_, zero⟩ := active entry member
    obtain ⟨reqId, state⟩ := entry
    cases state
    cases zero
    rfl
  have unforwarded : ∀ states : List RequestState, (∀ state ∈ states, state.isFinished = false) →
      states.foldl (fun manager state =>
        if state.isFinished then manager.forwardRequestFinished state.reqContext none
        else manager) manager = manager := by
    intro states
    induction states with
    | nil => exact fun _ => rfl
    | cons state rest ih =>
        intro unfinished
        rw [List.foldl_cons, unfinished state List.mem_cons_self]
        exact ih fun other member => unfinished other (List.mem_cons_of_mem _ member)
  have none := unforwarded manager.reqState.values fun state member => by
    obtain ⟨entry, listed, rfl⟩ := List.mem_map.mp member
    exact (active entry listed).1
  unfold TieringOffloadingManager.resetRequests at same ⊢
  rw [none] at same ⊢
  exact congrArg (fun reqState => { manager with reqState := reqState }) same

omit [CachePolicy P] in
theorem call_all_calls (manager : TieringOffloadingManager P) (tierCall : TierCall) :
    ∃ calls, manager.callAll tierCall = { manager with tierCalls := calls } := by
  unfold TieringOffloadingManager.callAll
  induction List.range manager.secondaryTiers.length generalizing manager with
  | nil => exact ⟨manager.tierCalls, rfl⟩
  | cons tierIdx rest ih =>
      obtain ⟨calls, called⟩ := ih (manager.call tierIdx tierCall)
      exact ⟨calls, called⟩

/-- A second reset whose tiers report nothing only talks to the tiers. -/
theorem reset_again {manager : TieringOffloadingManager P} (left : WasReset manager)
    (none : reportsOf (manager.callAll .drainJobs) = []) :
    ∃ answered calls, manager.resetCache =
      .ok { manager with answered := answered, tierCalls := calls } := by
  obtain ⟨calls, called⟩ := call_all_calls manager .drainJobs
  obtain ⟨answered, polled⟩ := process_nothing none
    ((congrArg TieringOffloadingManager.jobs called).trans left.jobs)
    ((congrArg TieringOffloadingManager.storePendingDeadline called).trans left.deadlines)
  refine ⟨answered, calls, ?_⟩
  obtain ⟨jobs, deadlines, owners, submissions, requests, gate, primary⟩ := left
  generalize again_eq : ({ manager with answered := answered, tierCalls := calls } :
    TieringOffloadingManager P) = again
  have polledAgain : (manager.callAll .drainJobs).processFinishedJobs = .ok again := by
    rw [polled, called, ← again_eq]
  have cleared : ({ again.withStorePends OrderedMap.empty OrderedMap.empty with
      pendingLoadSubmissions := OrderedMap.empty } : TieringOffloadingManager P) = again := by
    rw [← again_eq, ← deadlines, ← owners, ← submissions]
    rfl
  have requestsAgain : again.resetRequests = again := by
    apply reset_requests_again
    rw [← again_eq]
    exact requests
  have idle : again.jobs.entries.isEmpty = true := by
    rw [← again_eq, jobs]
    rfl
  unfold TieringOffloadingManager.resetCache
  rw [polledAgain, ok_bind, py_assert_of idle, ok_bind, cleared]
  dsimp only
  rw [requestsAgain, ← again_eq]
  dsimp only [TieringOffloadingManager.withPrimary, TieringOffloadingManager.setProcessed]
  rw [primary, ← gate]

end Again

section Metered

variable {P : Type} [CachePolicy P]

/-- `reset_cache` with the tracker's `assert_idle`: the tracker was told of the end of every
registered job. -/
def meteredReset (scheduler : OffloadingConnectorScheduler (Trailed P)) :
    Except PyError (OffloadingConnectorScheduler (Trailed P)) := do
  let after ← resetCache scheduler
  pyAssert (∀ jobId ∈ after.manager.record.trail.given.keys,
    jobId ∈ after.manager.record.trail.finished)
  .ok after

/-- The drained tiers report the jobs that were not reported before, each once, and a partial
report of a promotion names keys of the promotion. -/
structure TiersDrain (state : ReportRun P) : Prop where
  honest : state.trail.Honest (reportsOf (draining state))
  whole : DrainsAll state
  named : ∀ report ∈ reportsOf (draining state), ∀ job ∈ state.run.manager.jobs.get? report.jobId,
    job.transferJob.isPromotion = true → report.result.success = false →
      ∀ key ∈ report.result.successfulKeys, key ∈ job.transferJob.keys

/-- No job that was given to a tier left the running jobs before its report. -/
def NeverRetracted (state : ReportRun P) : Prop :=
  ∀ jobId ∈ state.trail.given.keys, ¬state.Retracted jobId

/-- The scheduler is the same but for what its manager said to the tiers and heard of them. -/
def Unchanged (once twice : OffloadingConnectorScheduler (Trailed P)) : Prop :=
  ∃ answered calls record, twice = once.withManager
    ⟨{ once.manager.inner with answered := answered, tierCalls := calls }, record⟩

variable [LawfulCachePolicy P] [TrackedPolicy P]

/-- With drained tiers, the metered reset of the manager returns unless a job was retracted. -/
theorem resets_unless_retracted {state : ReportRun P} (inv : ReportInv state)
    (drain : TiersDrain state) :
    (∃ after, MeteredResets.resetCache state = .ok after) ↔ NeverRetracted state := by
  constructor
  · rintro ⟨after, reset⟩
    exact (reset_unretracted inv drain.honest reset).1
  · intro kept
    obtain ⟨after, reset, _⟩ := (resets_idle_iff inv drain.honest drain.whole).mpr
      ⟨kept, fun report member => by
        obtain ⟨given, _⟩ := drain.honest.2 report member
        have unretracted := kept report.jobId (given_key.mpr ⟨_, given⟩)
        exact ⟨fun dropped => unretracted (.inr (.inr dropped)), drain.named report member⟩⟩
    exact ⟨after, reset⟩

omit [LawfulCachePolicy P] [TrackedPolicy P] in
/-- The calls of the metered reset to its manager. -/
theorem metered_reset_iff {scheduler : OffloadingConnectorScheduler (Trailed P)}
    {finished : Trailed P} (idle : Idle scheduler)
    (calls : finishAll scheduler.manager ((ConnectorMoves.unsent scheduler.reqStatus.entries).map
      fun entry => entry.2.reqContext) = .ok finished) :
    (∃ once, meteredReset scheduler = .ok once) ↔
      ∃ after, MeteredResets.resetCache (asRun finished) = .ok after := by
  have manager : resetManager scheduler = OffloadingManager.resetCache finished := by
    rw [resetManager, calls, ok_bind]
  constructor
  · rintro ⟨once, metered⟩
    obtain ⟨after, reset, asserted⟩ := bind_eq_ok.mp metered
    obtain ⟨_, told, _⟩ := bind_eq_ok.mp asserted
    obtain ⟨_, last, call, rfl⟩ := reset_outcome reset
    obtain ⟨inner, innerCall, rfl⟩ := map_eq_ok.mp (manager ▸ call)
    have applied : (asRun finished).apply .resetCache =
        .ok ⟨⟨inner, []⟩, [], (finished.told .resetCache inner).record.trail⟩ :=
      bind_eq_ok.mpr ⟨⟨inner, []⟩, bind_eq_ok.mpr ⟨inner, innerCall, rfl⟩, rfl⟩
    exact ⟨_, bind_eq_ok.mpr ⟨_, applied, bind_eq_ok.mpr ⟨_, told, rfl⟩⟩⟩
  · rintro ⟨after, reset⟩
    obtain ⟨applied, run, asserted⟩ := bind_eq_ok.mp reset
    obtain ⟨_, told, _⟩ := bind_eq_ok.mp asserted
    obtain ⟨ran, runOk, noted⟩ := bind_eq_ok.mp run
    obtain ⟨inner, innerCall, done⟩ := bind_eq_ok.mp runOk
    cases done
    cases noted
    have call : OffloadingManager.resetCache finished = .ok (finished.told .resetCache inner) :=
      map_eq_ok.mpr ⟨inner, innerCall, rfl⟩
    have connector : resetCache scheduler =
        .ok (afterReset scheduler (finished.told .resetCache inner)) := by
      rw [reset_cache_eq idle, manager, call]
      rfl
    exact ⟨_, bind_eq_ok.mpr ⟨_, connector, bind_eq_ok.mpr ⟨_, told, rfl⟩⟩⟩

omit [LawfulCachePolicy P] [TrackedPolicy P] in
/-- A second metered reset changes nothing exactly when no job was in flight at the first. -/
theorem metered_twice_iff (settled : ∀ policy : P,
      CachePolicy.storedKeys (CachePolicy.clear policy) = [] ∧
        CachePolicy.clear (CachePolicy.clear policy) = CachePolicy.clear policy)
    {scheduler once : OffloadingConnectorScheduler (Trailed P)}
    (reset : meteredReset scheduler = .ok once) (drain : TiersDrain (asRun once.manager)) :
    (∃ twice, meteredReset once = .ok twice ∧ Unchanged once twice) ↔
      scheduler.jobs.keys = [] := by
  obtain ⟨first, connector, asserted⟩ := bind_eq_ok.mp reset
  obtain ⟨_, idle, done⟩ := bind_eq_ok.mp asserted
  cases done
  have told := py_assert_eq_ok.mp idle
  obtain ⟨ready, manager, call, rfl⟩ := reset_outcome connector
  constructor
  · rintro ⟨twice, again, _⟩
    obtain ⟨_, second, _⟩ := bind_eq_ok.mp again
    exact (keys_empty_iff _).mp (reset_outcome second).1.2.1
  · intro none
    obtain ⟨finished, _, call⟩ := bind_eq_ok.mp call
    obtain ⟨inner, innerCall, rfl⟩ := map_eq_ok.mp call
    let managed := finished.told .resetCache inner
    have quiet : reportsOf (managed.inner.callAll .drainJobs) = [] := by
      apply List.eq_nil_iff_forall_not_mem.mpr
      intro report member
      obtain ⟨given, unreported⟩ := drain.honest.2 report member
      exact unreported (.inl (told report.jobId (given_key.mpr ⟨_, given⟩)))
    obtain ⟨answered, calls, innerAgain⟩ := reset_again (was_reset settled innerCall) quiet
    let last := managed.told .resetCache { inner with answered := answered, tierCalls := calls }
    have managerAgain : OffloadingManager.resetCache managed = .ok last :=
      map_eq_ok.mpr ⟨_, innerAgain, rfl⟩
    have idleAgain : Idle (afterReset scheduler managed) :=
      ⟨ready.1, (keys_empty_iff _).mpr none, ready.2.2⟩
    have second : resetCache (afterReset scheduler managed) =
        .ok ((afterReset scheduler managed).withManager last) := by
      rw [reset_cache_eq idleAgain, reset_manager_again, managerAgain]
      exact congrArg Except.ok (after_reset_again none managed last)
    have trail : last.record.trail = managed.record.trail := by
      show Trail.give (Trail.noteAll _ (reportsOf (managed.inner.callAll .drainJobs)))
        inner.jobs = _
      rw [quiet, (was_reset settled innerCall).jobs]
      rfl
    refine ⟨_, bind_eq_ok.mpr ⟨_, second, bind_eq_ok.mpr ⟨(), py_assert_eq_ok.mpr ?_, rfl⟩⟩,
      answered, calls, last.record, rfl⟩
    show ∀ jobId ∈ last.record.trail.given.keys, jobId ∈ last.record.trail.finished
    rw [trail]
    exact told

end Metered

/-- Over any manager the next metadata flushes every job that was in flight at a reset. -/
def ResetJobsFlushed : Prop :=
  ∀ (M : Type) [OffloadingManager M] (config : SchedulerOffloadConfig)
    (settings : ConnectorSettings) (mambaAlignSize : Option Nat) (manager : M)
    (clock : StaleHitLadder.Clock) (state : RunState M),
    EventRuns.Reaches RunState.apply RunState.Permitted
      (RunState.start config settings mambaAlignSize manager clock) state →
    ∀ output connectorMeta after,
      buildConnectorMeta state.scheduler output = .ok (connectorMeta, after) →
      state.unsent ⊆ connectorMeta.jobsToFlush

section Policies

variable {P : Type} [CachePolicy P]

/-- Between steps over a CPU manager: a reset returns exactly when no job was in flight at a
reset since the last step, and a second one changes nothing exactly when no job was in flight
at the first. -/
def CpuResetsExact (policy : P) : Prop :=
  ∀ (config : SchedulerOffloadConfig) (settings : ConnectorSettings)
    (mambaAlignSize : Option Nat) (primaryParams : CpuManagerParams)
    (clock : StaleHitLadder.Clock) (state : RunState (CPUOffloadingManager P)),
    EventRuns.Reaches RunState.apply RunState.Permitted
      (RunState.start config settings mambaAlignSize
        (CPUOffloadingManager.new primaryParams policy) clock) state →
    state.stepping = false →
    ((∃ once, resetCache state.scheduler = .ok once) ↔ state.unsent = ∅) ∧
    ∀ once, resetCache state.scheduler = .ok once →
      (resetCache once = .ok once ↔ state.scheduler.jobs.keys = [])

/-- The tiers drain at a reset, whatever requests it ends before. -/
def DrainsAtReset (scheduler : OffloadingConnectorScheduler (Trailed P)) : Prop :=
  ∀ finished, finishAll scheduler.manager
      ((ConnectorMoves.unsent scheduler.reqStatus.entries).map fun entry =>
        entry.2.reqContext) = .ok finished → TiersDrain (asRun finished)

/-- Between steps over a tiering manager whose tiers report honestly and drain: a reset returns
exactly when no job was in flight at a reset since the last step and no job of a tier was ever
retracted, and a second one changes nothing exactly when no job was in flight at the first;
`foreign` ids are those of the tiers. -/
def TierResetsExact (policy : P) : Prop :=
  ∀ (config : SchedulerOffloadConfig) (settings : ConnectorSettings)
    (mambaAlignSize : Option Nat) (primaryParams : CpuManagerParams) (params : TieringParams)
    (tiers : List TierInfo) (answers : Nat → TierAnswer) (clock : StaleHitLadder.Clock)
    (foreign : ReqId → Bool) (state : RunState (Trailed P)),
    AnswersOpen (fun reqId => foreign reqId = true) answers →
    AnswersClose (fun reqId => foreign reqId = true) answers →
    EventRuns.Reaches RunState.apply RunState.Permitted
      (RunState.start config settings mambaAlignSize ⟨TieringOffloadingManager.new params
        (CPUOffloadingManager.new primaryParams policy) tiers answers, {}⟩ clock) state →
    (∀ reqId ∈ state.known, foreign reqId = false) →
    state.scheduler.manager.record.honest = true → state.stepping = false →
    DrainsAtReset state.scheduler →
    ((∃ once, meteredReset state.scheduler = .ok once) ↔
      state.unsent = ∅ ∧ NeverRetracted (asRun state.scheduler.manager)) ∧
    ∀ once, meteredReset state.scheduler = .ok once → TiersDrain (asRun once.manager) →
      ((∃ twice, meteredReset once = .ok twice ∧ Unchanged once twice) ↔
        state.scheduler.jobs.keys = [])

/-- What the policies have in common for resets. -/
def Settles (P : Type) [CachePolicy P] : Prop :=
  ∀ policy : P, CachePolicy.storedKeys (CachePolicy.clear policy) = [] ∧
    CachePolicy.clear (CachePolicy.clear policy) = CachePolicy.clear policy

theorem cpu_resets_exact (settled : Settles P) (policy : P) : CpuResetsExact policy := by
  intro config settings mambaAlignSize primaryParams clock state reaches between
  have inv := reached_batch_inv reaches
  obtain ⟨manager, calls, again⟩ := cpu_resets settled state.scheduler
  refine ⟨?_, fun once reset => ?_⟩
  · rw [reset_returns_iff inv between]
    exact ⟨And.left, fun none => ⟨none, manager, calls⟩⟩
  · rw [reset_twice reset]
    refine ⟨And.left, fun none => ⟨none, ?_⟩⟩
    obtain ⟨_, last, call, rfl⟩ := reset_outcome reset
    cases calls.symm.trans call
    exact again

variable [LawfulCachePolicy P] [TrackedPolicy P] {policy : P}

theorem new_trail_keeps {foreign : ReqId → Prop} (tracked : TrackedPolicy.Tracked policy)
    (empty : ∀ key, CachePolicy.get policy key = none) (primaryParams : CpuManagerParams)
    (params : TieringParams) (tiers : List TierInfo) {answers : Nat → TierAnswer}
    (opens : AnswersOpen foreign answers) :
    TrailKeeps foreign answers ⟨TieringOffloadingManager.new params
      (CPUOffloadingManager.new primaryParams policy) tiers answers, {}⟩
      (fun _ => 0) (fun _ => 0) fun _ => False :=
  ⟨LedgerReports.new_tier_keeps tracked empty primaryParams params tiers opens, fun _ =>
    start_report_inv tracked empty primaryParams params tiers answers⟩

theorem tier_resets_exact (settled : Settles P) (tracked : TrackedPolicy.Tracked policy)
    (empty : ∀ key, CachePolicy.get policy key = none) : TierResetsExact policy := by
  intro config settings mambaAlignSize primaryParams params tiers answers clock foreign state opens
    closes reaches own honest between drains
  have inv := reached_batch_inv reaches
  obtain ⟨known, accounted⟩ := reached_accounted
    (trailed_dutiful (P := P) (fun reqId => foreign reqId = true) answers)
    (new_trail_keeps tracked empty primaryParams params tiers opens) reaches
  have keeps := accounted.keeps
  have named : ∀ entry ∈ state.scheduler.reqStatus.entries,
      (desk state.scheduler).requests entry.1 = some (reqBooks entry.2) ∧
        entry.2.reqContext.reqId = entry.1 := by
    intro entry present
    have found : (desk state.scheduler).requests entry.1 = some (reqBooks entry.2) := by
      rw [desk_requests, (OrderedMap.get_eq_some_iff ..).mpr present]
      rfl
    exact ⟨found, accounted.named entry.1 _ found⟩
  have distinct : (((ConnectorMoves.unsent state.scheduler.reqStatus.entries).map fun entry =>
      entry.2.reqContext).map ReqContext.reqId).Nodup := by
    rw [List.map_map]
    refine ((List.map_congr_left fun entry member => ?_).symm ▸
      state.scheduler.reqStatus.keys_nodup.sublist (List.filter_sublist.map Prod.fst))
    exact (named entry (List.mem_of_mem_filter member)).2
  obtain ⟨finished, calls⟩ := finish_all_returns _ keeps closes (by
    intro reqContext member
    obtain ⟨entry, listed, rfl⟩ := List.mem_map.mp member
    obtain ⟨present, flags⟩ := List.mem_filter.mp listed
    obtain ⟨found, isNamed⟩ := named entry present
    have unsignaled : entry.2.finishedSignaled = false := by
      simpa using (Bool.and_eq_true_iff.mp flags).2
    rw [isNamed]
    exact ⟨by simp [own entry.1 (known _ _ found)], reqBooks entry.2, found, unsignaled⟩) distinct
  have drain := drains finished calls
  obtain ⟨lastHonest, given, retracted⟩ := finish_all_run _ keeps honest calls
  have finishedKeeps := finish_all_keeps (trailed_dutiful _ answers) _ keeps calls
  have reportInv : ReportInv (asRun finished) :=
    fewer_trail (finishedKeeps.trail lastHonest) fun _ => Nat.zero_le _
  have same : NeverRetracted (asRun finished) ↔
      NeverRetracted (asRun state.scheduler.manager) := by
    refine forall_congr' fun jobId => ?_
    have keys : jobId ∈ (asRun finished).trail.given.keys ↔
        jobId ∈ (asRun state.scheduler.manager).trail.given.keys := by
      rw [OrderedMap.mem_keys_iff, OrderedMap.mem_keys_iff]
      exact iff_of_eq (congrArg (fun found => Option.isSome found = true) (given jobId))
    exact imp_congr keys (not_congr (retracted jobId))
  refine ⟨⟨?_, ?_⟩, fun once reset drainAgain => metered_twice_iff settled reset drainAgain⟩
  · rintro ⟨once, reset⟩
    obtain ⟨after, connector, _⟩ := bind_eq_ok.mp reset
    obtain ⟨idle, _⟩ := reset_outcome connector
    exact ⟨(idle_iff_sent inv between).mp idle, same.mp
      ((resets_unless_retracted reportInv drain).mp ((metered_reset_iff idle calls).mp
        ⟨once, reset⟩))⟩
  · rintro ⟨none, kept⟩
    exact (metered_reset_iff ((idle_iff_sent inv between).mpr none) calls).mpr
      ((resets_unless_retracted reportInv drain).mpr (same.mpr kept))

end Policies

/-- Resets of the connector over the CPU and the tiering manager. -/
theorem lru_and_arc_connector_resets_exact (cacheCapacity : Nat)
    (rounding : FloatRounding.Rounding) :
    ResetJobsFlushed ∧ CpuResetsExact (LruPolicy.LRUCachePolicy.new cacheCapacity) ∧
      CpuResetsExact (ArcPolicy.ARCCachePolicy.new cacheCapacity rounding) ∧
      TierResetsExact (LruPolicy.LRUCachePolicy.new cacheCapacity) ∧
      TierResetsExact (ArcPolicy.ARCCachePolicy.new cacheCapacity rounding) := by
  have lruTracked : TrackedPolicy.Tracked (LruPolicy.LRUCachePolicy.new cacheCapacity) := by
    intro key
    simp [LruPolicy.LRUCachePolicy.new]
  have arcTracked := ArcRepresentation.new_inv cacheCapacity rounding
  refine ⟨?_, cpu_resets_exact lru_settled _, cpu_resets_exact arc_settled _,
    tier_resets_exact lru_settled lruTracked fun _ => rfl,
    tier_resets_exact arc_settled arcTracked fun _ => rfl⟩
  intro M _ config settings mambaAlignSize manager clock state reaches output connectorMeta after
    built
  rw [← (reached_batch_inv reaches).flush]
  exact build_meta_flushes built

section Example

/-- The tier reports job 1 once. -/
def drainedTier (reportedAt index : Nat) : TierAnswer :=
  { finished := if index = reportedAt then [⟨1, true, []⟩] else [] }

def drainedStart (reportedAt : Nat) : RunState (Trailed LruPolicy.LRUCachePolicy) :=
  RunState.start (.fromSpec JobLedger.duoSpec) {} none
    ⟨.new {} (.new { numBlocks := 2 } (.new 2)) [{}] (drainedTier reportedAt), {}⟩
    ⟨fun _ => 0, 0⟩

/-- Both workers report the store of the request, which goes on to the tier as job 1. -/
def drainedEvents : List ConnectorEvent :=
  [.newRequest (LedgerReports.duoRequest 0 .unfinished),
    .buildConnectorMeta
      { reqData := [⟨0, [[5, 6]], false⟩]
        newReqIds := [0]
        numScheduledTokens := OrderedMap.empty.set 0 4 },
    .updateConnectorOutput [(0, 2)]]

variable {P : Type} [CachePolicy P]

/-- What the drained tiers say when every report is a success. -/
def Successes (state : ReportRun P) : Prop :=
  state.trail.Honest (reportsOf (draining state)) ∧
    (∀ jobId ∈ state.trail.given.keys, state.trail.Reported jobId ∨
      jobId ∈ (reportsOf (draining state)).map Report.jobId) ∧
    ((reportsOf (draining state)).all fun report => report.result.success) = true

instance (state : ReportRun P) : Decidable (Successes state) :=
  inferInstanceAs (Decidable (_ ∧ _ ∧ _))

theorem successes_drain {state : ReportRun P} (successes : Successes state) :
    TiersDrain state := by
  obtain ⟨honest, whole, succeed⟩ := successes
  refine ⟨honest, fun _ _ => whole, fun report member _ _ _ failed => ?_⟩
  rw [List.all_eq_true.mp succeed report member] at failed
  cases failed

/-- The first reset drains the tier of its running job, and the second changes nothing. -/
theorem drained_resets_settle :
    ∃ (state : RunState (Trailed LruPolicy.LRUCachePolicy))
      (once twice : OffloadingConnectorScheduler (Trailed LruPolicy.LRUCachePolicy)),
      state.scheduler.manager.inner.jobs.keys = [1] ∧ meteredReset state.scheduler = .ok once ∧
      meteredReset once = .ok twice ∧ Unchanged once twice := by
  have ran : (EventRuns.replay RunState.apply RunState.Permitted (drainedStart 12)
      drainedEvents).map (fun state => (state.scheduler.manager.inner.jobs.keys,
        decide (state.scheduler.manager.record.honest = true ∧ state.stepping = false ∧
          state.unsent = ∅ ∧ state.scheduler.jobs.keys = [] ∧
          (ConnectorMoves.unsent state.scheduler.reqStatus.entries).map Prod.fst = []),
        decide (Successes (asRun state.scheduler.manager) ∧
          state.scheduler.manager.record.trail.given.keys = [1] ∧
          ¬(asRun state.scheduler.manager).Retracted 1),
        (meteredReset state.scheduler).toOption.elim false fun once =>
          decide (Successes (asRun once.manager)))) = some ([1], true, true, true) := by
    decide +kernel
  obtain ⟨state, reaches, seen⟩ := EventRuns.exists_of_replay ran
  simp only [Prod.mk.injEq, decide_eq_true_eq] at seen
  obtain ⟨running, ⟨honest, between, sent, none, active⟩, ⟨successes, given, kept⟩,
    again⟩ := seen
  have nothing : ∀ foreign index parentCall, parentCall ∈ (drainedTier 12 index).served →
      ParentCall.Opens foreign parentCall ∧ ParentCall.Closes foreign parentCall := by
    intro foreign index parentCall member
    simp [drainedTier] at member
  obtain ⟨_, _, _, resets, _⟩ := lru_and_arc_connector_resets_exact 2 .exact
  obtain ⟨returns, twice⟩ := resets _ _ _ _ _ _ _ _ (fun _ => false) state
    (fun index parentCall member => (nothing _ index parentCall member).1)
    (fun index parentCall member => (nothing _ index parentCall member).2) reaches
    (fun _ _ => rfl) honest between (by
      intro finished calls
      rw [List.map_eq_nil_iff.mp active] at calls
      cases calls
      exact successes_drain successes)
  obtain ⟨once, reset⟩ := returns.mpr ⟨sent, by
    intro jobId member
    change jobId ∈ state.scheduler.manager.record.trail.given.keys at member
    rw [given, List.mem_singleton] at member
    exact member ▸ kept⟩
  rw [reset] at again
  obtain ⟨second, resetAgain, unchanged⟩ :=
    (twice once reset (successes_drain (of_decide_eq_true again))).mpr none
  exact ⟨state, once, second, running, reset, resetAgain, unchanged⟩

end Example

end KvOffload.ConnectorResets
