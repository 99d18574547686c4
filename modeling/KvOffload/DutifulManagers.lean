import KvOffload.ManagerDuties
import KvOffload.ReportRuns
import KvOffload.StoreReports

/-!
# The managers keep their accounts

A CPU manager pins what the loads in flight hold. The tiering manager pins it beside what
its own stores hold, whatever the tiers report, and counts the stores of each request that
is not the tiers' own.
-/

namespace KvOffload.DutifulManagers

open KvOffload KvOffload.Base KvOffload.PolicyInterface KvOffload.FiniteTotals
open KvOffload.CpuManager KvOffload.PolicyMoves KvOffload.PinnedBlocks KvOffload.Tiering
open KvOffload.TieringSlots KvOffload.TieringPolling KvOffload.TieringOperations
open KvOffload.StoreReports KvOffload.TransferBooks KvOffload.ManagerInterface
open KvOffload.ManagerDuties

set_option autoImplicit false

variable {P : Type} [CachePolicy P] [LawfulCachePolicy P] [TrackedPolicy P]

section Cpu

/-- The loads in flight can be released; a CPU manager knows no requests. -/
def CpuKeeps : Account (CPUOffloadingManager P) := fun manager loads _ _ =>
  Steady manager ∧ ∀ key, loads key ≤ pins manager key

theorem cpu_dutiful : Dutiful (CpuKeeps (P := P)) where
  fewer keeps fewerLoads _ := ⟨keeps.1, fun key => (fewerLoads key).trans (keeps.2 key)⟩
  looked keeps call := by
    obtain ⟨steady, same⟩ := lookup_steady keeps.1 call
    exact ⟨steady, fun key => (keeps.2 key).trans (pins_congr (same key)).ge⟩
  touched keys keeps := by
    obtain ⟨steady, same⟩ := touch_steady keeps.1 keys
    exact ⟨steady, fun key => (keeps.2 key).trans (pins_congr (same key)).ge⟩
  loaded keeps call := by
    obtain ⟨steady, taken⟩ := prepare_load_spec _ keeps.1 call
    exact ⟨steady, fun key => (Nat.add_le_add_right (keeps.2 key) _).trans (taken key).ge⟩
  declined keeps call _ := by
    obtain ⟨steady, same⟩ := prepare_store_steady keeps.1 call
    exact ⟨steady, fun key => (keeps.2 key).trans (same key).ge⟩
  stored keeps call _ := by
    obtain ⟨steady, same⟩ := prepare_store_steady keeps.1 call
    exact ⟨steady, fun key => (keeps.2 key).trans (same key).ge⟩
  storeCompleted {manager after loads stores left active keys reqContext} keeps lowered call := by
    obtain ⟨expected, returned, steady, same, _⟩ := complete_store_returns keeps.1 keys true
    cases returned.symm.trans call
    exact ⟨steady, fun key => (keeps.2 key).trans (same key).ge⟩
  loadCompleted keeps lowered call := by
    obtain ⟨steady, released⟩ := complete_load_spec _ keeps.1 call
    refine ⟨steady, fun key => ?_⟩
    have before := keeps.2 key
    have given := lowered key
    have after := released key
    omega
  opened _ keeps _ := keeps
  ended keeps call := by
    cases call
    exact keeps
  scheduled keeps call := by
    cases call
    exact keeps
  drained keeps := keeps
  reset {manager after loads stores active} keeps call := by
    cases call
    exact ⟨reset_steady manager, fun _ => Nat.zero_le _⟩

end Cpu

section Backing

/-- The tiers' own stores and the loads in flight can both be released. -/
structure Backed (manager : TieringOffloadingManager P) (loads : OffloadKey → Nat) : Prop where
  booked : Booked manager
  pinned : ∀ key, (storePins manager).count key + loads key ≤ pins manager.primaryTier key

variable {manager after : TieringOffloadingManager P} {loads : OffloadKey → Nat}

theorem backed_quiet (quiet : Quiet manager after) (backed : Backed manager loads) :
    Backed after loads := by
  obtain ⟨booked, advanced⟩ := quiet.books backed.booked
  refine ⟨booked, fun key => ?_⟩
  have taken := advanced.pins key
  have before := backed.pinned key
  omega

/-- The books are read from the same fields, and no block loses a pin. -/
theorem backed_of_same (same : SameTrail manager after) (backed : Backed manager loads)
    (steady : Steady after.primaryTier)
    (kept : ∀ key, pins manager.primaryTier key ≤ pins after.primaryTier key) :
    Backed after loads := by
  obtain ⟨booked, advanced⟩ := advanced_of_same same backed.booked fun _ => ⟨steady, kept⟩
  refine ⟨booked, fun key => ?_⟩
  have taken := advanced.pins key
  have before := backed.pinned key
  omega

/-- A job leaves the running ones, and the pins it held are loose. -/
theorem backed_pop {jobId : JobId} {job : JobMetadata}
    (running : manager.jobs.get? jobId = some job) (backed : Backed manager loads) :
    Backed (manager.popJob jobId) (fun key => loads key + (jobPins job).count key) := by
  have total : storePins (manager.popJob jobId) + jobPins job = storePins manager := by
    have erased := map_total_erase manager.jobs jobId jobPins
    rwa [running, Option.elim_some] at erased
  refine ⟨⟨backed.booked.pool, fun otherId other found =>
    backed.booked.jobs otherId other (jobs_erase_get found), backed.booked.owners⟩, fun key => ?_⟩
  have before := backed.pinned key
  rw [← total, Multiset.count_add] at before
  show _ ≤ pins manager.primaryTier key
  omega

theorem backed_fewer {less : OffloadKey → Nat} (backed : Backed manager loads)
    (fewer : ∀ key, less key ≤ loads key) : Backed manager less :=
  ⟨backed.booked, fun key => (Nat.add_le_add_left (fewer key) _).trans (backed.pinned key)⟩

/-- A step of a poll keeps every account of the pins and leaves the gate alone. -/
structure PollStep (manager after : TieringOffloadingManager P) : Prop where
  backed : ∀ loads, Backed manager loads → Backed after loads
  gate : after.processedJobsThisStep = manager.processedJobsThisStep

theorem poll_step_refl (manager : TieringOffloadingManager P) : PollStep manager manager :=
  ⟨fun _ backed => backed, rfl⟩

theorem poll_step_trans {first second third : TieringOffloadingManager P}
    (left : PollStep first second) (right : PollStep second third) : PollStep first third :=
  ⟨fun loads backed => right.backed loads (left.backed loads backed), right.gate.trans left.gate⟩

theorem poll_step_quiet (quiet : Quiet manager after) : PollStep manager after :=
  ⟨fun _ backed => backed_quiet quiet backed, quiet.gate⟩

/-- Only what the books are not read from differs. -/
theorem poll_step_same (primary : after.primaryTier = manager.primaryTier)
    (jobs : after.jobs = manager.jobs) (counter : after.jobIdCounter = manager.jobIdCounter)
    (owners : ∀ key owner, after.storePendingOwner.get? key = some owner →
      manager.storePendingOwner.get? key = some owner)
    (gate : after.processedJobsThisStep = manager.processedJobsThisStep) :
    PollStep manager after := by
  refine ⟨fun loads backed => ⟨⟨?_, ?_, ?_⟩, ?_⟩, gate⟩
  · exact primary ▸ backed.booked.pool
  · rw [jobs, counter]
    exact backed.booked.jobs
  · rw [counter]
    exact fun key owner found => backed.booked.owners key owner (owners key owner found)
  · intro key
    rw [storePins, jobs, primary]
    exact backed.pinned key

theorem complete_promotion_step {job : TransferJob} {result : JobResult}
    (completed : manager.completePromotion job result = .ok after) : PollStep manager after := by
  obtain ⟨⟨successful, failed⟩, _, completed⟩ := bind_eq_ok.mp completed
  obtain ⟨stored, storeOk, completed⟩ := bind_eq_ok.mp completed
  obtain ⟨dropped, dropOk, completed⟩ := bind_eq_ok.mp completed
  have written := poll_step_trans (poll_step_quiet (complete_write_quiet storeOk))
    (poll_step_quiet (complete_write_quiet dropOk))
  have filled : PollStep dropped ((dropped.forgetPromotionFailures successful).fillLedger
      (TieringOffloadingManager.reservationsOf job successful)) :=
    poll_step_same rfl rfl rfl (fun _ _ found => found) rfl
  have settled := poll_step_trans written filled
  dsimp only at completed
  split at completed
  · cases completed
    exact settled
  · cases completed
    obtain ⟨same, primary⟩ := ReportTrail.suppress_same
      ((dropped.forgetPromotionFailures successful).fillLedger
        (TieringOffloadingManager.reservationsOf job successful)) failed
    exact poll_step_trans settled (poll_step_same primary same.jobs same.counter
      (fun _ _ found => same.owners ▸ found) same.gate)

/-- Whatever a report says, a job that leaves by it releases its own pins only. -/
theorem consume_result_step {tierIdx : Nat} {result : JobResult}
    (consumed : manager.consumeResult tierIdx result = .ok after) : PollStep manager after := by
  unfold TieringOffloadingManager.consumeResult at consumed
  split at consumed
  · cases consumed
    exact poll_step_same rfl rfl rfl (fun _ _ found => found) rfl
  · cases running : manager.jobs.get? result.jobId with
    | none => simp [running] at consumed
    | some job =>
        simp only [running] at consumed
        obtain ⟨_, _, consumed⟩ := bind_eq_ok.mp consumed
        cases promotion : job.transferJob.isPromotion with
        | true =>
            simp only [promotion, if_true] at consumed
            obtain ⟨backed, gate⟩ := complete_promotion_step consumed
            exact ⟨fun loads before => backed loads (backed_fewer (backed_pop running before)
              fun key => Nat.le_add_right _ _), gate⟩
        | false =>
            simp only [promotion, Bool.false_eq_true, if_false] at consumed
            obtain ⟨primary, released, done⟩ := bind_eq_ok.mp consumed
            cases done
            refine ⟨fun loads before => ?_, rfl⟩
            have popped := backed_pop running before
            obtain ⟨steady, left⟩ := complete_load_spec _ popped.booked.pool released
            refine ⟨⟨steady, popped.booked.jobs, popped.booked.owners⟩, fun key => ?_⟩
            have enough := popped.pinned key
            have after := left key
            rw [jobPins, promotion] at enough
            simp only [Bool.false_eq_true, if_false, Multiset.coe_count] at enough
            show (storePins (manager.popJob result.jobId)).count key + _ ≤ pins primary key
            omega

theorem consume_results_step (results : List JobResult)
    {manager after : TieringOffloadingManager P} {tierIdx : Nat}
    (consumed : manager.consumeResults tierIdx results = .ok after) : PollStep manager after := by
  induction results generalizing manager with
  | nil =>
      cases consumed
      exact poll_step_refl _
  | cons result rest ih =>
      obtain ⟨middle, first, later⟩ := bind_eq_ok.mp consumed
      exact poll_step_trans (consume_result_step first) (ih later)

theorem poll_tiers_step (tiers : List Nat) {manager after : TieringOffloadingManager P}
    (polled : manager.pollTiers tiers = .ok after) : PollStep manager after := by
  induction tiers generalizing manager with
  | nil =>
      cases polled
      exact poll_step_refl _
  | cons tierIdx rest ih =>
      obtain ⟨middle, first, later⟩ := bind_eq_ok.mp polled
      exact poll_step_trans (poll_step_quiet (next_quiet manager))
        (poll_step_trans (consume_results_step _ first) (ih later))

theorem pop_step (manager : TieringOffloadingManager P) (jobId : JobId) :
    PollStep manager (manager.popJob jobId) := by
  refine ⟨fun loads backed => ?_, rfl⟩
  cases running : manager.jobs.get? jobId with
  | some job => exact backed_fewer (backed_pop running backed) fun key => Nat.le_add_right _ _
  | none =>
      have total := map_total_erase manager.jobs jobId jobPins
      rw [running, Option.elim_none, add_zero] at total
      refine ⟨⟨backed.booked.pool, fun otherId other found =>
        backed.booked.jobs otherId other (jobs_erase_get found), backed.booked.owners⟩, ?_⟩
      intro key
      show (mapTotal (manager.jobs.erase jobId) jobPins).count key + _ ≤ _
      rw [total]
      exact backed.pinned key

theorem retract_promotions_step (jobIds : List JobId)
    {manager after : TieringOffloadingManager P}
    (retracted : manager.retractPromotions jobIds = .ok after) : PollStep manager after := by
  induction jobIds generalizing manager with
  | nil =>
      cases retracted
      exact poll_step_refl _
  | cons jobId rest ih =>
      obtain ⟨middle, first, later⟩ := bind_eq_ok.mp retracted
      apply fun step => poll_step_trans step (ih later)
      have marked : PollStep manager ((manager.popJob jobId).addRetracted jobId) :=
        poll_step_trans (pop_step manager jobId)
          (poll_step_same rfl rfl rfl (fun _ _ found => found) rfl)
      unfold TieringOffloadingManager.retractPromotion at first
      cases running : manager.jobs.get? jobId with
      | none =>
          simp only [running] at first
          cases first
          exact marked
      | some job =>
          simp only [running] at first
          obtain ⟨written, writeOk, done⟩ := bind_eq_ok.mp first
          cases done
          have dropped := poll_step_trans marked (poll_step_quiet (complete_write_quiet writeOk))
          obtain ⟨same, primary⟩ := ReportTrail.suppress_same written job.transferJob.keys
          exact poll_step_trans dropped (poll_step_same primary same.jobs same.counter
            (fun _ _ found => same.owners ▸ found) same.gate)

theorem retract_store_pends_step (groups : List (JobId × List OffloadKey))
    {manager after : TieringOffloadingManager P}
    (retracted : manager.retractStorePends groups = .ok after) : PollStep manager after := by
  induction groups generalizing manager with
  | nil =>
      cases retracted
      exact poll_step_refl _
  | cons group rest ih =>
      obtain ⟨batchJobId, keys⟩ := group
      obtain ⟨middle, first, later⟩ := bind_eq_ok.mp retracted
      have marked : PollStep manager (manager.addRetracted batchJobId) :=
        poll_step_same rfl rfl rfl (fun _ _ found => found) rfl
      have counted : PollStep middle middle.countRetracted :=
        poll_step_same rfl rfl rfl (fun _ _ found => found) rfl
      exact poll_step_trans marked (poll_step_trans (poll_step_quiet (complete_write_quiet first))
        (poll_step_trans counted (ih later)))

/-- Polling the tiers and expiring what is overdue. -/
theorem process_step (processed : manager.processFinishedJobs = .ok after) :
    PollStep manager after := by
  obtain ⟨polled, pollOk, processed⟩ := bind_eq_ok.mp processed
  obtain ⟨promoted, promoteOk, expired⟩ := bind_eq_ok.mp processed
  have promotedStep : PollStep polled promoted := by
    unfold TieringOffloadingManager.expireStalePromotions at promoteOk
    split at promoteOk
    · cases promoteOk
      exact poll_step_refl _
    · exact poll_step_trans (poll_step_quiet (next_quiet polled))
        (retract_promotions_step _ promoteOk)
  apply poll_step_trans (poll_step_trans (poll_tiers_step _ pollOk) promotedStep)
  unfold TieringOffloadingManager.expireStaleStorePends at expired
  split at expired
  · cases expired
    exact poll_step_refl _
  · obtain ⟨deadlines, owners, groups, disarmed, fewer, _⟩ := ReportTrail.disarm_all_batches
      (promoted.expiredStorePends promoted.answer.now) promoted.next OrderedMap.empty
    simp only [disarmed] at expired
    have timed : PollStep promoted.next (promoted.next.withStorePends deadlines owners) :=
      poll_step_same rfl rfl rfl fewer rfl
    exact poll_step_trans (poll_step_quiet (next_quiet promoted))
      (poll_step_trans timed (retract_store_pends_step _ expired))

theorem maybe_process_backed (processed : manager.maybeProcessFinishedJobs = .ok after)
    (backed : Backed manager loads) :
    Backed after loads ∧ after.processedJobsThisStep = true := by
  unfold TieringOffloadingManager.maybeProcessFinishedJobs at processed
  split at processed
  · rename_i closed
    cases processed
    exact ⟨backed, closed⟩
  · obtain ⟨keeps, gate⟩ := process_step processed
    exact ⟨keeps loads ⟨⟨backed.booked.pool, backed.booked.jobs, backed.booked.owners⟩,
      backed.pinned⟩, gate⟩

theorem reset_backed (reset : manager.resetCache = .ok after) : Backed after fun _ => 0 := by
  obtain ⟨polled, pollOk, reset⟩ := bind_eq_ok.mp reset
  obtain ⟨_, idle, done⟩ := bind_eq_ok.mp reset
  have noJobs : polled.jobs.entries = [] := by simpa using py_assert_eq_ok.mp idle
  generalize cleared_eq : ({ polled.withStorePends OrderedMap.empty OrderedMap.empty with
    pendingLoadSubmissions := OrderedMap.empty } : TieringOffloadingManager P) = cleared at done
  have same := ReportRuns.reset_requests_same cleared
  cases done
  have jobs : cleared.resetRequests.jobs = OrderedMap.empty := by
    rw [same.jobs, ← cleared_eq]
    exact OrderedMap.ext_entries noJobs
  have owners : cleared.resetRequests.storePendingOwner = OrderedMap.empty := by
    rw [same.owners, ← cleared_eq]
    rfl
  refine ⟨⟨reset_steady _, ?_, ?_⟩, fun key => ?_⟩
  · intro jobId job found
    change cleared.resetRequests.jobs.get? jobId = some job at found
    rw [jobs] at found
    simp at found
  · intro key owner found
    change cleared.resetRequests.storePendingOwner.get? key = some owner at found
    rw [owners] at found
    simp at found
  · show (mapTotal cleared.resetRequests.jobs jobPins).count key + 0 ≤ _
    rw [jobs, map_total_empty]
    simp

end Backing

section Requests

/-- The counts and the flags of the requests; `foreign` ids are those of the tiers, and
`apart` says that the tiers finish no others. -/
structure Tracks (foreign : ReqId → Prop) (apart : Prop)
    (reqState : OrderedMap ReqId RequestState) (stores : ReqId → Nat) (active : ReqId → Prop) :
    Prop where
  counted : ∀ reqId, ¬foreign reqId → pendingStores reqState reqId = stores reqId
  known : apart → ∀ reqId, ¬foreign reqId → active reqId →
    ∃ state, reqState.get? reqId = some state ∧ state.isFinished = false

variable {foreign : ReqId → Prop} {apart : Prop} {reqState : OrderedMap ReqId RequestState}
  {stores : ReqId → Nat} {active : ReqId → Prop} {reqId : ReqId} {state : RequestState}

theorem tracks_stored (found : reqState.get? reqId = some state)
    (tracks : Tracks foreign apart reqState stores active) :
    Tracks foreign apart
      (reqState.set reqId { state with pendingPrimaryStores := state.pendingPrimaryStores + 1 })
      (fun other => stores other + if other = reqId then 1 else 0) active := by
  have counted : pendingStores reqState reqId = state.pendingPrimaryStores := by
    simp [pendingStores, found]
  constructor
  · intro other own
    rw [pending_set, ← tracks.counted other own]
    by_cases same : other = reqId
    · rw [if_pos same, if_pos same, same, counted]
    · rw [if_neg same, if_neg same, Nat.add_zero]
  · intro isApart other own isActive
    obtain ⟨earlier, isEarlier, unfinished⟩ := tracks.known isApart other own isActive
    by_cases same : other = reqId
    · subst same
      cases isEarlier.symm.trans found
      exact ⟨_, OrderedMap.get_set_self .., unfinished⟩
    · exact ⟨earlier, (OrderedMap.get_set_of_ne _ _ same).trans isEarlier, unfinished⟩

theorem tracks_settled {left : ReqId → Nat} (found : reqState.get? reqId = some state)
    (lowered : ∀ other, left other + (if other = reqId then 1 else 0) = stores other)
    (tracks : Tracks foreign apart reqState stores active) :
    Tracks foreign apart (settledRequests reqState reqId state) left active := by
  constructor
  · intro other own
    rw [pending_settled found, tracks.counted other own, ← lowered other, Nat.add_sub_cancel]
  · intro isApart other own isActive
    obtain ⟨earlier, isEarlier, unfinished⟩ := tracks.known isApart other own isActive
    unfold settledRequests
    by_cases same : other = reqId
    · subst same
      cases isEarlier.symm.trans found
      rw [if_neg (by simp [unfinished])]
      exact ⟨_, OrderedMap.get_set_self .., unfinished⟩
    · refine ⟨earlier, ?_, unfinished⟩
      dsimp only
      split
      · rw [OrderedMap.get_erase, if_neg same, OrderedMap.get_set, if_neg same, isEarlier]
      · rw [OrderedMap.get_set, if_neg same, isEarlier]

theorem tracks_opened (empty : state.pendingPrimaryStores = 0)
    (unfinished : state.isFinished = false) (none : ¬foreign reqId → stores reqId = 0)
    (tracks : Tracks foreign apart reqState stores active) :
    Tracks foreign apart (reqState.set reqId state) stores
      fun other => active other ∨ other = reqId := by
  constructor
  · intro other own
    rw [pending_set]
    split
    · rename_i same
      rw [empty, same, none (same ▸ own)]
    · exact tracks.counted other own
  · intro isApart other own isActive
    by_cases same : other = reqId
    · exact ⟨state, by rw [same, OrderedMap.get_set_self], unfinished⟩
    · obtain ⟨earlier, isEarlier, earlierUnfinished⟩ :=
        tracks.known isApart other own (isActive.resolve_right same)
      exact ⟨earlier, (OrderedMap.get_set_of_ne _ _ same).trans isEarlier, earlierUnfinished⟩

theorem tracks_finished (found : reqState.get? reqId = some state)
    (tracks : Tracks foreign apart reqState stores active) :
    Tracks foreign apart (finishedRequests reqState reqId state) stores
      fun other => active other ∧ other ≠ reqId := by
  constructor
  · intro other own
    rw [pending_finished found]
    exact tracks.counted other own
  · rintro isApart other own ⟨isActive, different⟩
    obtain ⟨earlier, isEarlier, unfinished⟩ := tracks.known isApart other own isActive
    refine ⟨earlier, ?_, unfinished⟩
    unfold finishedRequests
    dsimp only
    split
    · rw [OrderedMap.get_erase, if_neg different, OrderedMap.get_set, if_neg different, isEarlier]
    · rw [OrderedMap.get_set, if_neg different, isEarlier]

theorem tracks_fewer {left : ReqId → Prop} (tracks : Tracks foreign apart reqState stores active)
    (fewer : ∀ other, ¬foreign other → left other → active other) :
    Tracks foreign apart reqState stores left :=
  ⟨tracks.counted, fun isApart other own isLeft =>
    tracks.known isApart other own (fewer other own isLeft)⟩

theorem tracks_served {first second : OrderedMap ReqId RequestState}
    (served : Served foreign (fun reqId => apart → foreign reqId) first second)
    (tracks : Tracks foreign apart first stores active) :
    Tracks foreign apart second stores active := by
  induction served with
  | refl => exact tracks
  | @opened second reqId state _ own empty ih =>
      have different : ∀ other, ¬foreign other → other ≠ reqId :=
        fun other isOwn same => isOwn (same ▸ own)
      constructor
      · intro other isOwn
        rw [pending_set, if_neg (different other isOwn)]
        exact ih.counted other isOwn
      · intro isApart other isOwn isActive
        obtain ⟨earlier, isEarlier, unfinished⟩ := ih.known isApart other isOwn isActive
        exact ⟨earlier, (OrderedMap.get_set_of_ne _ _ (different other isOwn)).trans isEarlier,
          unfinished⟩
  | @finished second reqId state _ closes known ih =>
      have finished := tracks_finished known ih
      refine ⟨finished.counted, fun isApart other isOwn isActive => ?_⟩
      have different : other ≠ reqId := fun same => isOwn (same ▸ closes isApart)
      exact finished.known isApart other isOwn ⟨isActive, different⟩

omit [CachePolicy P] [LawfulCachePolicy P] [TrackedPolicy P] in
/-- A reset keeps the unfinished requests. -/
theorem reset_requests_get {manager : TieringOffloadingManager P}
    (found : manager.reqState.get? reqId = some state) (unfinished : state.isFinished = false) :
    manager.resetRequests.reqState.get? reqId = some { state with pendingPrimaryStores := 0 } := by
  have distinct : ((manager.reqState.entries.filter fun entry =>
      entry.2.isFinished = false).map Prod.fst).Nodup :=
    manager.reqState.keys_nodup.sublist (List.filter_sublist.map Prod.fst)
  have listed : (reqId, state) ∈ manager.reqState.entries.filter fun entry =>
      entry.2.isFinished = false :=
    List.mem_filter.mpr ⟨(manager.reqState.get_eq_some_iff reqId state).mp found,
      by simpa using unfinished⟩
  have moved := set_all_get ((manager.reqState.entries.filter fun entry =>
    entry.2.isFinished = false).map fun entry =>
      (entry.1, { entry.2 with pendingPrimaryStores := 0 })) OrderedMap.empty
    (by rwa [List.map_map]) reqId
  rw [List.foldl_map, assoc_get_map _ fun _ (state : RequestState) =>
    { state with pendingPrimaryStores := 0 }, assoc_get_of_mem distinct listed] at moved
  exact moved

omit [CachePolicy P] [LawfulCachePolicy P] [TrackedPolicy P] in
theorem reset_requests_tracks {manager : TieringOffloadingManager P}
    (tracks : Tracks foreign apart manager.reqState stores active) :
    Tracks foreign apart manager.resetRequests.reqState (fun _ => 0) active := by
  constructor
  · intro other _
    cases found : manager.resetRequests.reqState.get? other with
    | none => simp [pendingStores, found]
    | some state => simp [pendingStores, found, reset_requests_zero manager found]
  · intro isApart other own isActive
    obtain ⟨state, found, unfinished⟩ := tracks.known isApart other own isActive
    exact ⟨_, reset_requests_get found unfinished, unfinished⟩

end Requests

section Tiering

variable {manager after : TieringOffloadingManager P} {foreign : ReqId → Prop}

omit [TrackedPolicy P] in
/-- What a store does to the request states, whatever its keys. -/
theorem prepare_store_requests {keys : List OffloadKey} {reqContext : ReqContext}
    {output : Option PrepareStoreOutput}
    (prepared : manager.prepareStore keys reqContext = .ok (output, after)) :
    worldOf after = worldOf manager ∧
      match output with
      | none => after.reqState = manager.reqState
      | some out => ∃ state, manager.reqState.get? reqContext.reqId = some state ∧
          after.reqState = if out.keysToStore = [] then manager.reqState
            else manager.reqState.set reqContext.reqId
              { state with pendingPrimaryStores := state.pendingPrimaryStores + 1 } := by
  obtain ⟨polled, pollOk, prepared⟩ := bind_eq_ok.mp prepared
  obtain ⟨⟨result, primary⟩, _, prepared⟩ := bind_eq_ok.mp prepared
  have kept := maybe_process_kept pollOk
  cases result with
  | none =>
      cases prepared
      exact ⟨kept.world, kept.reqState⟩
  | some out =>
      obtain ⟨state, known, prepared⟩ := bind_eq_ok.mp prepared
      have known := py_item_eq_ok.mp known
      have stored : worldOf (storedManager polled primary reqContext state out.keysToStore) =
          worldOf manager ∧
          (storedManager polled primary reqContext state out.keysToStore).reqState =
            if out.keysToStore = [] then manager.reqState
            else manager.reqState.set reqContext.reqId
              { state with pendingPrimaryStores := state.pendingPrimaryStores + 1 } := by
        unfold storedManager
        split
        · exact ⟨kept.world, kept.reqState⟩
        · obtain ⟨requests, world⟩ :=
            arm_frame (polled.withPrimary primary) reqContext state out.keysToStore
          exact ⟨world.trans kept.world, by rw [requests, ← kept.reqState]; rfl⟩
      have known : manager.reqState.get? reqContext.reqId = some state := kept.reqState ▸ known
      change (if _ then _ else _) = _ at prepared
      split at prepared
      · cases prepared
        exact ⟨stored.1, state, known, stored.2⟩
      · obtain ⟨last, cascaded, done⟩ := bind_eq_ok.mp prepared
        cases done
        have later := cascade_existing_kept cascaded
        exact ⟨later.world.trans stored.1, state, known, later.reqState.trans stored.2⟩

/-- The account of the tiering manager in front of tiers that open requests under their own
ids. -/
structure TierKeeps (foreign : ReqId → Prop) (answers : Nat → TierAnswer)
    (manager : TieringOffloadingManager P) (loads : OffloadKey → Nat) (stores : ReqId → Nat)
    (active : ReqId → Prop) : Prop where
  backed : Backed manager loads
  heard : manager.answers = answers
  opens : AnswersOpen foreign answers
  tracks : Tracks foreign (AnswersClose foreign answers) manager.reqState stores active

variable {answers : Nat → TierAnswer} {loads : OffloadKey → Nat} {stores : ReqId → Nat}
  {active : ReqId → Prop}

theorem tier_keeps_of {loadsAfter : OffloadKey → Nat} {storesAfter : ReqId → Nat}
    {activeAfter : ReqId → Prop} (keeps : TierKeeps foreign answers manager loads stores active)
    (backed : Backed after loadsAfter) (world : worldOf after = worldOf manager)
    (tracks : Tracks foreign (AnswersClose foreign answers) after.reqState storesAfter
      activeAfter) : TierKeeps foreign answers after loadsAfter storesAfter activeAfter :=
  ⟨backed, (answers_of_world world).trans keeps.heard, keeps.opens, tracks⟩

theorem tier_keeps_kept {loadsAfter : OffloadKey → Nat}
    (keeps : TierKeeps foreign answers manager loads stores active)
    (backed : Backed after loadsAfter) (kept : Kept manager after) : TierKeeps foreign answers after loadsAfter stores active :=
  tier_keeps_of keeps backed kept.world (kept.reqState ▸ keeps.tracks)

theorem answers_close_apart (foreign : ReqId → Prop) (answers : Nat → TierAnswer) :
    AnswersClose (fun reqId => AnswersClose foreign answers → foreign reqId) answers := by
  intro index parentCall member
  cases parentCall with
  | onRequestFinished reqContext => exact fun closes => closes index _ member
  | onNewRequest reqContext => exact trivial
  | lookup key reqContext => exact trivial
  | createStoreJob keys reqContext => exact trivial

omit [TrackedPolicy P] in
theorem complete_load_kept {keys : List OffloadKey}
    (completed : manager.completeLoad keys = .ok after) :
    ∃ primary, manager.primaryTier.completeLoad keys = .ok primary ∧
      after = manager.withPrimary primary ∧ Kept manager after := by
  obtain ⟨primary, unpinned, done⟩ := bind_eq_ok.mp completed
  cases done
  exact ⟨primary, unpinned, rfl, unpin_kept unpinned⟩

theorem tiering_dutiful (foreign : ReqId → Prop) (answers : Nat → TierAnswer) :
    Dutiful (TierKeeps (P := P) foreign answers) where
  fewer keeps fewerLoads fewerActive := ⟨backed_fewer keeps.backed fewerLoads, keeps.heard,
    keeps.opens,
    tracks_fewer keeps.tracks fun other _ => fewerActive other⟩
  looked keeps call := by
    obtain ⟨polled, pollOk, quiet⟩ := lookup_quiet call
    have polledBacked := (maybe_process_backed pollOk keeps.backed).1
    exact tier_keeps_kept keeps (backed_quiet quiet polledBacked) (lookup_kept call)
  touched {manager loads stores active} keys keeps :=
    tier_keeps_kept keeps (backed_quiet (touch_quiet manager keys) keeps.backed)
      (touch_kept manager keys)
  loaded {manager after loads stores active keys blockIds} keeps call := by
    obtain ⟨⟨ids, primary⟩, pinned, done⟩ := bind_eq_ok.mp call
    cases done
    obtain ⟨steady, taken⟩ := prepare_load_spec keys keeps.backed.booked.pool pinned
    refine tier_keeps_kept keeps ⟨⟨steady, keeps.backed.booked.jobs, keeps.backed.booked.owners⟩,
      fun key => ?_⟩ (pin_kept pinned)
    have before := keeps.backed.pinned key
    have more := taken key
    show (storePins manager).count key + _ ≤ pins primary key
    omega
  declined {manager after loads stores active keys reqContext bypassThreshold output} keeps call
      nothing := by
    obtain ⟨polled, pollOk, quiet⟩ := prepare_store_quiet call
    obtain ⟨world, requests⟩ := prepare_store_requests call
    have same : after.reqState = manager.reqState := by
      cases output with
      | none => exact requests
      | some out =>
          obtain ⟨_, _, requests⟩ := requests
          rwa [if_pos (nothing out rfl)] at requests
    have polledBacked := (maybe_process_backed pollOk keeps.backed).1
    exact tier_keeps_of keeps (backed_quiet quiet polledBacked) world (same ▸ keeps.tracks)
  stored keeps call something := by
    obtain ⟨polled, pollOk, quiet⟩ := prepare_store_quiet call
    obtain ⟨world, state, found, requests⟩ := prepare_store_requests call
    rw [if_neg something] at requests
    have polledBacked := (maybe_process_backed pollOk keeps.backed).1
    exact tier_keeps_of keeps (backed_quiet quiet polledBacked) world
      (requests ▸ tracks_stored found keeps.tracks)
  storeCompleted keeps lowered call := by
    obtain ⟨state, found, _, requests⟩ := (complete_store_completed call).requests
    exact tier_keeps_of keeps (backed_quiet (complete_store_quiet call) keeps.backed)
      (complete_store_completed call).world
      (requests ▸ tracks_settled found lowered keeps.tracks)
  loadCompleted {manager after loads left stores active keys} keeps lowered call := by
    obtain ⟨primary, released, rfl, kept⟩ := complete_load_kept call
    obtain ⟨steady, freed⟩ := complete_load_spec keys keeps.backed.booked.pool released
    refine tier_keeps_kept keeps ⟨⟨steady, keeps.backed.booked.jobs, keeps.backed.booked.owners⟩,
      fun key => ?_⟩ kept
    have before := keeps.backed.pinned key
    have given := lowered key
    have after := freed key
    show (storePins manager).count key + _ ≤ pins primary key
    omega
  opened {manager loads stores active} reqContext keeps idle := by
    obtain ⟨same, state, empty, unfinished, requests⟩ := new_request_spec manager reqContext none
    refine tier_keeps_of keeps (backed_quiet (new_request_quiet manager reqContext none)
      keeps.backed) same.world ?_
    show Tracks foreign _ (manager.onNewRequest reqContext none).2.reqState _ _
    rw [requests]
    exact tracks_opened empty unfinished (fun _ => idle) keeps.tracks
  ended keeps call := by
    obtain ⟨same, state, found, requests⟩ := request_finished_spec call
    exact tier_keeps_of keeps (backed_quiet (request_finished_quiet call) keeps.backed) same.world
      (requests ▸ tracks_finished found keeps.tracks)
  scheduled {manager after loads stores active context} keeps call := by
    obtain ⟨polled, pollOk, quiet⟩ := schedule_end_quiet call
    obtain rfl := keeps.heard
    have served := schedule_end_by keeps.opens (answers_close_apart foreign manager.answers) call
    have backed : Backed after loads := by
      obtain ⟨polledBacked, closed⟩ := maybe_process_backed pollOk keeps.backed
      obtain ⟨booked, advanced⟩ := quiet closed polledBacked.booked
      refine ⟨booked, fun key => ?_⟩
      have taken := advanced.pins key
      have before := polledBacked.pinned key
      omega
    exact tier_keeps_of keeps backed served.world (tracks_served served.requests keeps.tracks)
  drained {manager loads stores active} keeps :=
    tier_keeps_kept keeps ⟨⟨keeps.backed.booked.pool, keeps.backed.booked.jobs,
      keeps.backed.booked.owners⟩, keeps.backed.pinned⟩ (drain_kept manager)
  reset {manager after loads stores active} keeps call := by
    refine tier_keeps_of keeps (reset_backed call) (reset_cache_reset call).2.2.1 ?_
    obtain ⟨polled, pollOk, reset⟩ := bind_eq_ok.mp call
    obtain ⟨_, _, done⟩ := bind_eq_ok.mp reset
    cases done
    have kept := kept_trans (call_all_kept manager .drainJobs) (process_kept pollOk)
    apply reset_requests_tracks
    show Tracks foreign _ polled.reqState _ _
    rw [kept.reqState]
    exact keeps.tracks

variable {keys : List OffloadKey} {reqContext : ReqContext}

/-- A cascade of filled keys returns, and the same keys are stored after it. -/
theorem cascade_returns (tiers : List Nat) {manager : TieringOffloadingManager P}
    (reqContext : ReqContext) (steady : Steady manager.primaryTier)
    (ready : ∀ key ∈ keys, Ready manager.primaryTier.policy key) :
    ∃ after, manager.cascade keys reqContext tiers = .ok after := by
  induction tiers generalizing manager with
  | nil => exact ⟨manager, rfl⟩
  | cons tierIdx rest ih =>
      obtain ⟨blockIds, primary, loaded, kept⟩ := prepare_load_returns keys steady ready
      let job : TransferJob :=
        { jobId := manager.jobIdCounter
          keys := keys
          blockIds := blockIds
          isPromotion := false
          reqContext := reqContext
          reservations := [] }
      obtain ⟨after, cascaded⟩ := @ih (((manager.withPrimary primary).nextJobId.registerJob job
        tierIdx).call tierIdx (.submitStore job)) (prepare_load_spec keys steady loaded).1
          fun key member => kept key (ready key member)
      exact ⟨after, by
        rw [TieringOffloadingManager.cascade, TieringOffloadingManager.createStoreJob, loaded,
          ok_bind]
        exact cascaded⟩

theorem cascade_stored (tiers : List Nat) {manager after : TieringOffloadingManager P}
    (steady : Steady manager.primaryTier)
    (cascaded : manager.cascade keys reqContext tiers = .ok after) :
    SameStored manager.primaryTier after.primaryTier := by
  induction tiers generalizing manager with
  | nil =>
      cases cascaded
      exact fun _ => rfl
  | cons tierIdx rest ih =>
      obtain ⟨⟨job, middle⟩, created, later⟩ := bind_eq_ok.mp cascaded
      obtain ⟨⟨blockIds, primary⟩, loaded, done⟩ := bind_eq_ok.mp created
      cases done
      exact same_stored_trans (prepare_load_stored keys steady loaded)
        (ih (prepare_load_spec keys steady loaded).1 later)

/-- What a completion of a store needs: no tier to hand the keys to, or all keys stored. -/
def Cascades (manager : TieringOffloadingManager P) (keys : List OffloadKey) : Prop :=
  manager.secondaryTiers = [] ∨ ∀ key ∈ keys, (manager.primaryTier.get key).isSome = true

theorem store_completion_returns (keeps : TierKeeps foreign answers manager loads stores active)
    (own : ¬foreign reqContext.reqId) (counted : 0 < stores reqContext.reqId)
    (cascades : Cascades manager keys) :
    ∃ after, manager.completeStore keys reqContext true = .ok after := by
  obtain ⟨primary, stored, steady, _, filled⟩ :=
    complete_store_returns keeps.backed.booked.pool keys true
  let written := (manager.withPrimary primary).disarmStorePends keys
  have cascadeReturns : ∃ cascaded, written.cascade keys reqContext
      (List.range written.secondaryTiers.length) = .ok cascaded := by
    rcases cascades with none | resident
    · refine ⟨written, ?_⟩
      have noTiers : written.secondaryTiers = [] := none
      rw [noTiers]
      rfl
    · exact cascade_returns _ reqContext steady fun key member =>
        filled rfl key member (resident key member)
  obtain ⟨cascaded, cascadeOk⟩ := cascadeReturns
  have requests : cascaded.reqState = manager.reqState := (cascade_kept _ cascadeOk).reqState
  have positive : 0 < pendingStores manager.reqState reqContext.reqId := by
    rwa [keeps.tracks.counted _ own]
  obtain ⟨state, known⟩ : ∃ state, manager.reqState.get? reqContext.reqId = some state := by
    cases found : manager.reqState.get? reqContext.reqId with
    | none => simp [pendingStores, found] at positive
    | some state => exact ⟨state, rfl⟩
  rw [pendingStores, known, Option.elim_some] at positive
  obtain ⟨after, settled⟩ := settle_request_ok (requests ▸ known) positive
  refine ⟨after, ?_⟩
  unfold TieringOffloadingManager.completeStore TieringOffloadingManager.completeWrite
  rw [stored, ok_bind, ok_bind]
  exact bind_eq_ok.mpr ⟨cascaded, cascadeOk, settled⟩

theorem store_completion_cascades {others : List OffloadKey}
    (steady : Steady manager.primaryTier)
    (completed : manager.completeStore keys reqContext true = .ok after)
    (cascades : Cascades manager others) : Cascades after others := by
  have world : after.secondaryTiers = manager.secondaryTiers :=
    congrArg Prod.fst (complete_store_completed completed).world
  obtain ⟨written, writeOk, completed⟩ := bind_eq_ok.mp completed
  obtain ⟨primary, stored, done⟩ := bind_eq_ok.mp writeOk
  cases done
  obtain ⟨cascaded, cascadeOk, settled⟩ := bind_eq_ok.mp completed
  obtain ⟨expected, returned, primarySteady, _⟩ := complete_store_returns steady keys true
  cases returned.symm.trans stored
  have disarmed : Steady ((manager.withPrimary primary).disarmStorePends keys).primaryTier :=
    primarySteady
  have same := same_stored_trans (complete_store_stored steady stored)
    (cascade_stored _ disarmed cascadeOk)
  refine cascades.imp (fun none => world.trans none) fun resident key member => ?_
  rw [(settle_request_spec settled).1.primary, same key]
  exact resident key member

theorem load_completion_cascades {others : List OffloadKey} (steady : Steady manager.primaryTier)
    (completed : manager.completeLoad keys = .ok after) (cascades : Cascades manager others) :
    Cascades after others := by
  obtain ⟨primary, released, rfl, _⟩ := complete_load_kept completed
  refine cascades.imp id fun resident key member => ?_
  show (primary.get key).isSome = true
  rw [complete_load_stored keys steady released key]
  exact resident key member

theorem load_completion_returns (keeps : TierKeeps foreign answers manager loads stores active)
    (held : ∀ key, keys.count key ≤ loads key) :
    ∃ after, manager.completeLoad keys = .ok after := by
  obtain ⟨primary, released⟩ := complete_load_returns keys keeps.backed.booked.pool
    fun key _ => by
      have enough := keeps.backed.pinned key
      have room := held key
      omega
  exact ⟨_, by rw [TieringOffloadingManager.completeLoad, released, ok_bind]⟩

end Tiering

end KvOffload.DutifulManagers
