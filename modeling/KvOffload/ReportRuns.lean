import KvOffload.ArcRepresentation
import KvOffload.LruRecency
import KvOffload.ReportTrail
import KvOffload.TieringRuns

/-!
# Reports over whole runs

A run of the tiering manager with the trail of its jobs. The tiers report a job
at most once, at any later poll, and the GPU side releases the loads it made.
-/

namespace KvOffload.ReportRuns

open KvOffload KvOffload.Base KvOffload.PolicyInterface KvOffload.FiniteTotals
open KvOffload.CpuManager KvOffload.CpuPool KvOffload.CpuManagerSpec KvOffload.Tiering
open KvOffload.TieringSlots KvOffload.TieringPolling KvOffload.TieringOperations
open KvOffload.TieringRuns KvOffload.PolicyMoves KvOffload.PinnedBlocks
open KvOffload.TransferBooks KvOffload.ReportTrail

set_option autoImplicit false

variable {P : Type}

/-- The jobs that run after a step were given to their tiers. -/
def Trail.give (trail : Trail) (jobs : OrderedMap JobId JobMetadata) : Trail :=
  { trail with
    given := (jobs.entries.map fun entry => (entry.1, entry.2.tierIdx)).foldl
      (fun given entry => given.set entry.1 entry.2) trail.given }

/-- The retracted ids that a drain forgot. -/
def Trail.forget (trail : Trail) (before after : TieringOffloadingManager P) : Trail :=
  { trail with
    dropped := trail.dropped ∪
      (before.retractedJobIds ∪ before.drainedRetractedJobIds.keys.toFinset).filter
        fun jobId => tolerates after jobId = false }

structure ReportRun (P : Type) where
  run : TieringRun P
  loads : List (List OffloadKey)
  trail : Trail

/-- The manager that the event polls with, if it polls at all. -/
def pollOf (manager : TieringOffloadingManager P) :
    TieringEvent → Option (TieringOffloadingManager P)
  | .lookup _ _ | .prepareStore _ _ | .scheduleEnd _ =>
      if manager.processedJobsThisStep then none else some (manager.setProcessed true)
  | .resetCache => some (manager.callAll .drainJobs)
  | _ => none

namespace ReportRun

def loadsAfter (loads : List (List OffloadKey)) : TieringEvent → List (List OffloadKey)
  | .prepareLoad keys => keys :: loads
  | .completeLoad keys => loads.erase keys
  | .resetCache => []
  | _ => loads

variable [CachePolicy P]

def noted (state : ReportRun P) (event : TieringEvent) : Trail :=
  match pollOf state.run.manager event with
  | none => state.trail
  | some polling => state.trail.noteAll (reportsOf polling)

def trailAfter (state : ReportRun P) (event : TieringEvent)
    (after : TieringOffloadingManager P) : Trail :=
  match event with
  | .drainFlushJobIds => Trail.give (Trail.forget state.trail state.run.manager after) after.jobs
  | _ => Trail.give (state.noted event) after.jobs

def apply (state : ReportRun P) (event : TieringEvent) : Except PyError (ReportRun P) := do
  let run ← state.run.apply event
  .ok ⟨run, loadsAfter state.loads event, state.trailAfter event run.manager⟩

/-- A load is released once, and the reports of a poll are honest. -/
def Permitted (state : ReportRun P) (event : TieringEvent) : Prop :=
  (∀ polling ∈ pollOf state.run.manager event, state.trail.Honest (reportsOf polling)) ∧
    match event with
    | .completeLoad keys => keys ∈ state.loads
    | _ => True

instance (state : ReportRun P) (event : TieringEvent) : Decidable (Permitted state event) :=
  match event with
  | .completeLoad keys => inferInstanceAs (Decidable (_ ∧ keys ∈ state.loads))
  | .newRequest _ | .lookup _ _ | .prepareStore _ _ | .completeStore _ _ | .prepareLoad _
  | .touch _ | .requestFinished _ | .scheduleEnd _ | .drainFlushJobIds | .resetCache =>
      inferInstanceAs (Decidable (_ ∧ True))

def start (policy : P) (primaryParams : CpuManagerParams) (params : TieringParams)
    (tiers : List TierInfo) (answers : Nat → TierAnswer) : ReportRun P :=
  ⟨TieringRun.start policy primaryParams params tiers answers, [], {}⟩

end ReportRun

/-- Runs of a new manager in front of any tiers and any clock. -/
def Reaches [CachePolicy P] (policy : P) (primaryParams : CpuManagerParams)
    (params : TieringParams) (tiers : List TierInfo) (answers : Nat → TierAnswer)
    (state : ReportRun P) : Prop :=
  EventRuns.Reaches ReportRun.apply ReportRun.Permitted
    (ReportRun.start policy primaryParams params tiers answers) state

def loadPins (loads : List (List OffloadKey)) (key : OffloadKey) : Nat :=
  (loads.map fun keys => keys.count key).sum

section Steps

variable [CachePolicy P] [LawfulCachePolicy P] [TrackedPolicy P] {trail : Trail} {loads : OffloadKey → Nat}

omit [CachePolicy P] [LawfulCachePolicy P] [TrackedPolicy P] in
theorem give_get (trail : Trail) (jobs : OrderedMap JobId JobMetadata) (jobId : JobId) :
    (Trail.give trail jobs).given.get? jobId =
      ((jobs.get? jobId).map JobMetadata.tierIdx).or (trail.given.get? jobId) := by
  have distinct : ((jobs.entries.map fun entry => (entry.1, entry.2.tierIdx)).map
      Prod.fst).Nodup := by
    rw [List.map_map]
    exact jobs.keys_nodup
  have listed : ∀ entries : List (JobId × JobMetadata),
      assocGet (entries.map fun entry => (entry.1, entry.2.tierIdx)) jobId =
        (assocGet entries jobId).map JobMetadata.tierIdx := by
    intro entries
    induction entries with
    | nil => rfl
    | cons entry rest ih =>
        by_cases same : entry.1 = jobId
        · simp [assocGet, same]
        · simp [assocGet, same, ih]
  rw [Trail.give, set_all_get _ _ distinct, listed]
  rfl

/-- What happens between two polls keeps the trail, with the new jobs given. -/
theorem advanced_trail {polled after : TieringOffloadingManager P}
    (inv : TrailInv trail loads polled) (booked : Booked after)
    (advanced : Advanced polled after) {loadsAfter : OffloadKey → Nat}
    (pinned : ∀ key, (storePins after).count key + loadsAfter key ≤
      pins after.primaryTier key) : TrailInv (Trail.give trail after.jobs) loadsAfter after := by
  have late : ∀ jobId, tolerates after jobId = tolerates polled jobId := by
    intro jobId
    rw [tolerates, tolerates, advanced.retracted, advanced.drained]
  have placesAfter : ∀ jobId, (Trail.give trail after.jobs).places after jobId +
      (polled.jobs.contains jobId).toNat =
        trail.places polled jobId + (after.jobs.contains jobId).toNat := by
    intro jobId
    rw [Trail.places, Trail.places, late]
    show (after.jobs.contains jobId).toNat + trail.finished.count jobId + _ +
      (decide (jobId ∈ trail.resolved)).toNat + (decide (jobId ∈ trail.dropped)).toNat + _ = _
    omega
  have oldJobs : ∀ jobId, jobId < polled.jobIdCounter →
      after.jobs.contains jobId = polled.jobs.contains jobId := by
    intro jobId old
    rw [OrderedMap.contains, OrderedMap.contains, advanced.jobs jobId old]
  have fresh : ∀ jobId, polled.jobIdCounter ≤ jobId → polled.jobs.contains jobId = false := by
    intro jobId new
    have unborn := inv.unborn jobId new
    rw [Trail.places] at unborn
    exact Bool.toNat_eq_zero.mp (by omega)
  have oldGiven : ∀ jobId tierIdx, trail.given.get? jobId = some tierIdx →
      (Trail.give trail after.jobs).places after jobId = 1 := by
    intro jobId tierIdx given
    have old := given_below inv given
    have placed := inv.placed jobId tierIdx given
    have both := placesAfter jobId
    rw [oldJobs jobId old] at both
    omega
  refine ⟨booked, ?_, ?_, ?_, ?_, pinned⟩
  · intro jobId tierIdx given
    rw [give_get] at given
    cases running : after.jobs.get? jobId with
    | none =>
        rw [running, Option.map_none, Option.none_or] at given
        exact oldGiven jobId tierIdx given
    | some job =>
        have contained : after.jobs.contains jobId = true := by
          rw [OrderedMap.contains, running]
          rfl
        by_cases old : jobId < polled.jobIdCounter
        · have before : polled.jobs.get? jobId = some job :=
            (advanced.jobs jobId old).symm.trans running
          exact oldGiven jobId job.tierIdx (inv.jobs jobId job before)
        · have both := placesAfter jobId
          rw [fresh jobId (not_lt.mp old), inv.unborn jobId (not_lt.mp old), contained,
            Bool.toNat_false, Bool.toNat_true] at both
          omega
  · intro jobId unborn
    have stopped : after.jobs.contains jobId = false := by
      cases running : after.jobs.get? jobId with
      | none => rw [OrderedMap.contains, running]; rfl
      | some job => exact absurd (booked.jobs jobId job running) (not_lt.mpr unborn)
    have both := placesAfter jobId
    have new := advanced.counter.trans unborn
    rw [fresh jobId new, inv.unborn jobId new, stopped] at both
    exact both
  · intro jobId job running
    rw [give_get, running]
    rfl
  · intro key owner found
    rw [give_get]
    rcases advanced.owners key owner found with ⟨old, held⟩ | ⟨new, free⟩
    · have none := inv.owners old owner held
      have stopped : after.jobs.get? owner.2 = Option.none := by
        rw [advanced.jobs owner.2 (inv.booked.owners old owner held)]
        cases running : polled.jobs.get? owner.2 with
        | none => rfl
        | some job =>
            rw [inv.jobs owner.2 job running] at none
            cases none
      rw [stopped, none]
      rfl
    · rw [free, Option.map_none, Option.none_or]
      cases given : trail.given.get? owner.2 with
      | none => rfl
      | some tierIdx => exact absurd (given_below inv given) (not_lt.mpr new)

/-- A step that does not poll keeps the trail. -/
theorem quiet_trail {polled after : TieringOffloadingManager P}
    (inv : TrailInv trail loads polled)
    (moved : Booked polled → Booked after ∧ Advanced polled after) :
    TrailInv (Trail.give trail after.jobs) loads after := by
  obtain ⟨booked, advanced⟩ := moved inv.booked
  refine advanced_trail inv booked advanced fun key => ?_
  have taken := advanced.pins key
  have before := inv.pinned key
  omega

/-- The poll of a step, if there is one, notes its reports. -/
theorem maybe_process_trail {manager polled : TieringOffloadingManager P}
    (inv : TrailInv trail loads manager)
    (honest : ∀ polling ∈ (if manager.processedJobsThisStep then none
      else some (manager.setProcessed true)), trail.Honest (reportsOf polling))
    (processed : manager.maybeProcessFinishedJobs = .ok polled) :
    polled.processedJobsThisStep = true ∧
      TrailInv (match (if manager.processedJobsThisStep then none
        else some (manager.setProcessed true)) with
        | none => trail
        | some polling => trail.noteAll (reportsOf polling)) loads polled := by
  unfold TieringOffloadingManager.maybeProcessFinishedJobs at processed
  split at processed
  · rename_i closed
    cases processed
    rw [if_pos closed]
    exact ⟨closed, inv⟩
  · rename_i opened
    rw [if_neg opened] at honest ⊢
    have closing : TrailInv trail loads (manager.setProcessed true) :=
      ⟨⟨inv.booked.pool, inv.booked.jobs, inv.booked.owners⟩, inv.placed, inv.unborn, inv.jobs,
        inv.owners, inv.pinned⟩
    obtain ⟨_, after⟩ := process_exact closing (honest _ rfl)
    obtain ⟨afterInv, gate⟩ := after polled processed
    exact ⟨gate, afterInv⟩

omit [CachePolicy P] [LawfulCachePolicy P] [TrackedPolicy P] in
theorem retained_contains (manager : TieringOffloadingManager P) (deadline : Rat)
    (jobId : JobId) :
    ((manager.retractedJobIds.sort (· ≤ ·)).foldl (fun drained jobId => drained.set jobId deadline)
      manager.drainedRetractedJobIds).contains jobId = tolerates manager jobId := by
  rw [Bool.eq_iff_iff, contains_set_all, Finset.mem_sort, tolerates_iff]
  exact or_comm

omit [CachePolicy P] [LawfulCachePolicy P] [TrackedPolicy P] in
/-- A drain tolerates nothing new. -/
theorem drain_tolerates {manager : TieringOffloadingManager P} {jobId : JobId}
    (late : tolerates manager.drainFlushJobIds.2 jobId = true) :
    tolerates manager jobId = true := by
  unfold TieringOffloadingManager.drainFlushJobIds at late
  rw [tolerates_iff] at late
  have kept := (contains_erase_all _ _ _).mp (late.resolve_left (Finset.notMem_empty jobId))
  have held := kept.1
  split at held
  · exact (tolerates_iff manager jobId).mpr (.inr held)
  · rwa [retained_contains] at held

omit [CachePolicy P] [LawfulCachePolicy P] [TrackedPolicy P] in
/-- A job that a drain forgets goes from the tolerated to the dropped ones. -/
theorem places_forget (trail : Trail) (manager : TieringOffloadingManager P) {jobId : JobId}
    (placed : trail.places manager jobId ≤ 1) :
    (Trail.forget trail manager manager.drainFlushJobIds.2).places manager.drainFlushJobIds.2
      jobId = trail.places manager jobId := by
  have jobs : manager.drainFlushJobIds.2.jobs = manager.jobs := rfl
  have member : decide (jobId ∈
      (Trail.forget trail manager manager.drainFlushJobIds.2).dropped) =
        (decide (jobId ∈ trail.dropped) ||
          (tolerates manager jobId && !tolerates manager.drainFlushJobIds.2 jobId)) := by
    rw [Bool.eq_iff_iff]
    simp only [Trail.forget, Finset.mem_union, Finset.mem_filter, List.mem_toFinset,
      OrderedMap.mem_keys_iff, decide_eq_true_eq, Bool.or_eq_true, Bool.and_eq_true,
      Bool.not_eq_true', tolerates_iff, OrderedMap.contains]
  rw [Trail.places] at placed ⊢
  rw [Trail.places, jobs, member]
  show _ + trail.finished.count jobId + _ + (decide (jobId ∈ trail.resolved)).toNat + _ = _
  have forgets := @drain_tolerates P manager jobId
  cases before : tolerates manager jobId with
  | false =>
      have after : tolerates manager.drainFlushJobIds.2 jobId = false := by
        rw [Bool.eq_false_iff]
        intro late
        rw [forgets late] at before
        cases before
      rw [after, Bool.false_and, Bool.or_false]
  | true =>
      rw [before, Bool.toNat_true] at placed
      have kept : decide (jobId ∈ trail.dropped) = false := Bool.toNat_eq_zero.mp (by omega)
      cases tolerates manager.drainFlushJobIds.2 jobId with
      | false =>
          simp only [kept, Bool.not_false, Bool.and_self, Bool.or_true, Bool.toNat_true,
            Bool.toNat_false]
          omega
      | true => simp only [kept, Bool.not_true, Bool.and_false, Bool.or_self]

theorem drain_trail {manager : TieringOffloadingManager P}
    (inv : TrailInv trail loads manager) :
    TrailInv (Trail.forget trail manager manager.drainFlushJobIds.2) loads
      manager.drainFlushJobIds.2 := by
  refine ⟨⟨inv.booked.pool, inv.booked.jobs, inv.booked.owners⟩, ?_, ?_, inv.jobs, inv.owners,
    inv.pinned⟩
  · intro jobId tierIdx given
    have placed := inv.placed jobId tierIdx given
    rw [places_forget trail manager placed.le]
    exact placed
  · intro jobId late
    have unborn := inv.unborn jobId late
    rw [places_forget trail manager (unborn.le.trans zero_le_one)]
    exact unborn

omit [CachePolicy P] [LawfulCachePolicy P] [TrackedPolicy P] in
theorem same_trail_trans {first second third : TieringOffloadingManager P}
    (left : SameTrail first second) (right : SameTrail second third) : SameTrail first third :=
  ⟨right.counter.trans left.counter, right.jobs.trans left.jobs, right.owners.trans left.owners,
    right.retracted.trans left.retracted, right.drained.trans left.drained,
    right.gate.trans left.gate⟩

omit [CachePolicy P] [LawfulCachePolicy P] [TrackedPolicy P] in
theorem call_all_same (manager : TieringOffloadingManager P) (tierCall : TierCall) :
    SameTrail manager (manager.callAll tierCall) ∧
      (manager.callAll tierCall).primaryTier = manager.primaryTier := by
  unfold TieringOffloadingManager.callAll
  induction List.range manager.secondaryTiers.length generalizing manager with
  | nil => exact ⟨⟨rfl, rfl, rfl, rfl, rfl, rfl⟩, rfl⟩
  | cons tierIdx rest ih =>
      obtain ⟨same, primary⟩ := ih (manager.call tierIdx tierCall)
      have called : SameTrail manager (manager.call tierIdx tierCall) :=
        ⟨rfl, rfl, rfl, rfl, rfl, rfl⟩
      exact ⟨same_trail_trans called same, primary⟩

omit [CachePolicy P] [LawfulCachePolicy P] [TrackedPolicy P] in
theorem forward_finished_same (manager : TieringOffloadingManager P) (reqContext : ReqContext) :
    SameTrail manager (manager.forwardRequestFinished reqContext none) := by
  unfold TieringOffloadingManager.forwardRequestFinished
  induction List.range manager.secondaryTiers.length generalizing manager with
  | nil => exact ⟨rfl, rfl, rfl, rfl, rfl, rfl⟩
  | cons tierIdx rest ih =>
      rw [List.foldl_cons, if_neg (by simp)]
      have called : SameTrail manager (manager.call tierIdx (.onRequestFinished reqContext)) :=
        ⟨rfl, rfl, rfl, rfl, rfl, rfl⟩
      exact same_trail_trans called (ih _)

omit [CachePolicy P] [LawfulCachePolicy P] [TrackedPolicy P] in
theorem reset_requests_same (manager : TieringOffloadingManager P) :
    SameTrail manager manager.resetRequests := by
  have forwarded : ∀ (states : List RequestState) (manager : TieringOffloadingManager P),
      SameTrail manager (states.foldl
        (fun manager state =>
          if state.isFinished then manager.forwardRequestFinished state.reqContext none
          else manager) manager) := by
    intro states
    induction states with
    | nil => exact fun _ => ⟨rfl, rfl, rfl, rfl, rfl, rfl⟩
    | cons state rest ih =>
        intro manager
        rw [List.foldl_cons]
        split
        · exact same_trail_trans (forward_finished_same manager state.reqContext) (ih _)
        · exact ih manager
  have same := forwarded manager.reqState.values manager
  exact ⟨same.counter, same.jobs, same.owners, same.retracted, same.drained, same.gate⟩

/-- What a reset leaves of the polled manager. -/
theorem reset_after_poll {polled : TieringOffloadingManager P}
    (inv : TrailInv trail loads polled) (idle : polled.jobs = OrderedMap.empty)
    {after : TieringOffloadingManager P} (jobs : after.jobs = polled.jobs)
    (counter : after.jobIdCounter = polled.jobIdCounter)
    (owners : after.storePendingOwner = OrderedMap.empty)
    (retracted : after.retractedJobIds = polled.retractedJobIds)
    (drained : after.drainedRetractedJobIds = polled.drainedRetractedJobIds)
    (pool : Steady after.primaryTier) :
    TrailInv (Trail.give trail after.jobs) (fun _ => 0) after := by
  have empty : storePins after = 0 := by
    rw [storePins, jobs, idle]
    exact map_total_empty jobPins
  have booked : Booked after := by
    refine ⟨pool, ?_, fun key owner found => ?_⟩
    · rw [jobs, counter]
      exact inv.booked.jobs
    · rw [owners] at found
      simp at found
  refine ⟨booked, ?_, ?_, ?_, ?_, ?_⟩
  · intro jobId tierIdx given
    rw [give_get, jobs, idle] at given
    have placed := inv.placed jobId tierIdx given
    rw [Trail.places] at placed ⊢
    rw [tolerates, retracted, drained, jobs]
    exact placed
  · intro jobId late
    have unborn := inv.unborn jobId (counter ▸ late)
    rw [Trail.places] at unborn ⊢
    rw [tolerates, retracted, drained, jobs]
    exact unborn
  · intro jobId job running
    rw [jobs, idle] at running
    simp at running
  · intro key owner found
    rw [owners] at found
    simp at found
  · intro key
    rw [empty]
    simp

theorem reset_cache_trail {manager after : TieringOffloadingManager P}
    (inv : TrailInv trail loads manager)
    (honest : trail.Honest (reportsOf (manager.callAll .drainJobs)))
    (reset : manager.resetCache = .ok after) :
    TrailInv (Trail.give (trail.noteAll (reportsOf (manager.callAll .drainJobs))) after.jobs)
      (fun _ => 0) after := by
  obtain ⟨polled, pollOk, reset⟩ := bind_eq_ok.mp reset
  obtain ⟨_, idle, done⟩ := bind_eq_ok.mp reset
  have noJobs : polled.jobs.entries = [] := by simpa using py_assert_eq_ok.mp idle
  obtain ⟨calledSame, calledPrimary⟩ := call_all_same manager .drainJobs
  have called : TrailInv trail loads (manager.callAll .drainJobs) := by
    refine trail_inv_of_same inv calledSame (calledPrimary ▸ inv.booked.pool) fun key => ?_
    rw [calledPrimary]
    exact inv.pinned key
  obtain ⟨_, polling⟩ := process_exact called honest
  obtain ⟨polledInv, _⟩ := polling polled pollOk
  generalize cleared_eq : ({ polled.withStorePends OrderedMap.empty OrderedMap.empty with
    pendingLoadSubmissions := OrderedMap.empty } : TieringOffloadingManager P) = cleared at done
  have same := reset_requests_same cleared
  cases done
  refine reset_after_poll polledInv (OrderedMap.ext_entries noJobs) ?_ ?_ ?_ ?_ ?_
    (reset_steady _)
  · exact same.jobs.trans (by rw [← cleared_eq]; rfl)
  · exact same.counter.trans (by rw [← cleared_eq]; rfl)
  · exact same.owners.trans (by rw [← cleared_eq]; rfl)
  · exact same.retracted.trans (by rw [← cleared_eq]; rfl)
  · exact same.drained.trans (by rw [← cleared_eq]; rfl)

end Steps

section Events

variable [CachePolicy P] [LawfulCachePolicy P] [TrackedPolicy P]

def ReportInv (state : ReportRun P) : Prop :=
  TrailInv state.trail (loadPins state.loads) state.run.manager

theorem fewer_trail {trail : Trail} {loads fewer : OffloadKey → Nat}
    {manager : TieringOffloadingManager P} (inv : TrailInv trail loads manager)
    (less : ∀ key, fewer key ≤ loads key) : TrailInv trail fewer manager :=
  ⟨inv.booked, inv.placed, inv.unborn, inv.jobs, inv.owners, fun key =>
    (Nat.add_le_add_left (less key) _).trans (inv.pinned key)⟩

theorem prepare_load_trail {trail : Trail} {loads : OffloadKey → Nat}
    {manager after : TieringOffloadingManager P} {keys : List OffloadKey} {blockIds : List Nat}
    (inv : TrailInv trail loads manager)
    (loaded : manager.prepareLoad keys = .ok (blockIds, after)) :
    TrailInv (Trail.give trail after.jobs) (fun key => loads key + keys.count key) after := by
  obtain ⟨⟨ids, primary⟩, pinned, done⟩ := bind_eq_ok.mp loaded
  cases done
  obtain ⟨pool, taken⟩ := prepare_load_spec keys inv.booked.pool pinned
  have same : SameTrail manager (manager.withPrimary primary) := ⟨rfl, rfl, rfl, rfl, rfl, rfl⟩
  obtain ⟨booked, advanced⟩ := advanced_of_same same inv.booked fun _ =>
    ⟨pool, fun key => (Nat.le_add_right _ _).trans (taken key).ge⟩
  refine advanced_trail inv booked advanced fun key => ?_
  have before := inv.pinned key
  have stores : (storePins (manager.withPrimary primary)).count key =
      (storePins manager).count key := rfl
  show _ ≤ pins primary key
  rw [taken]
  omega

theorem complete_load_trail {trail : Trail} {loads left : OffloadKey → Nat}
    {manager after : TieringOffloadingManager P} {keys : List OffloadKey}
    (inv : TrailInv trail loads manager)
    (lowered : ∀ key, left key + keys.count key = loads key)
    (completed : manager.completeLoad keys = .ok after) :
    TrailInv (Trail.give trail after.jobs) left after := by
  obtain ⟨primary, released, done⟩ := bind_eq_ok.mp completed
  cases done
  obtain ⟨pool, freed⟩ := complete_load_spec keys inv.booked.pool released
  have unloaded : TrailInv trail left (manager.withPrimary primary) := by
    have same : SameTrail manager (manager.withPrimary primary) := ⟨rfl, rfl, rfl, rfl, rfl, rfl⟩
    refine trail_inv_of_same inv same pool fun key => ?_
    have before := inv.pinned key
    have after := freed key
    rw [← lowered] at before
    show _ ≤ pins primary key
    omega
  exact quiet_trail unloaded (quiet_refl (manager.withPrimary primary)).books

omit [CachePolicy P] [LawfulCachePolicy P] [TrackedPolicy P] in
theorem load_pins_erase {loads : List (List OffloadKey)} {keys : List OffloadKey}
    (held : keys ∈ loads) (key : OffloadKey) :
    loadPins (loads.erase keys) key + keys.count key = loadPins loads key := by
  have perm := (List.perm_cons_erase held).map fun keys => keys.count key
  rw [loadPins, loadPins, perm.sum_eq, List.map_cons, List.sum_cons]
  exact Nat.add_comm _ _

omit [CachePolicy P] [LawfulCachePolicy P] [TrackedPolicy P] in
theorem accept_manager (run : TieringRun P) (output : PrepareStoreOutput)
    (reqContext : ReqContext) (manager : TieringOffloadingManager P) :
    (run.accept output reqContext manager).manager = manager := by
  unfold TieringRun.accept
  split <;> rfl

theorem apply_report_inv {state after : ReportRun P} {event : TieringEvent}
    (inv : ReportInv state) (permitted : ReportRun.Permitted state event)
    (applied : state.apply event = .ok after) : ReportInv after := by
  obtain ⟨run, ran, done⟩ := bind_eq_ok.mp applied
  cases done
  obtain ⟨honest, allowed⟩ := permitted
  cases event with
  | newRequest reqContext =>
      cases ran
      exact quiet_trail inv (new_request_quiet _ reqContext none).books
  | lookup key reqContext =>
      obtain ⟨⟨result, manager⟩, looked, ran⟩ := bind_eq_ok.mp ran
      cases ran
      obtain ⟨polled, pollOk, quiet⟩ := lookup_quiet looked
      exact quiet_trail (maybe_process_trail inv honest pollOk).2 quiet.books
  | prepareStore keys reqContext =>
      obtain ⟨⟨output, manager⟩, prepared, ran⟩ := bind_eq_ok.mp ran
      obtain ⟨polled, pollOk, quiet⟩ := prepare_store_quiet prepared
      have kept := quiet_trail (maybe_process_trail inv honest pollOk).2 quiet.books
      cases output with
      | none =>
          cases ran
          exact kept
      | some output =>
          cases ran
          unfold ReportInv ReportRun.trailAfter
          dsimp only
          rw [accept_manager]
          exact kept
  | completeStore index success =>
      cases found : state.run.stores[index]? with
      | none =>
          simp only [TieringRun.apply, found] at ran
          cases ran
          exact quiet_trail inv (quiet_refl _).books
      | some job =>
          simp only [TieringRun.apply, found] at ran
          obtain ⟨manager, completed, ran⟩ := bind_eq_ok.mp ran
          cases ran
          have told : Quiet state.run.manager (state.run.reported job success) := by
            unfold TieringRun.reported
            split
            · exact quiet_of_same ⟨rfl, rfl, rfl, rfl, rfl, rfl⟩ rfl
            · exact quiet_refl _
          exact quiet_trail inv (quiet_trans told (complete_store_quiet completed)).books
  | prepareLoad keys =>
      obtain ⟨⟨blockIds, manager⟩, loaded, ran⟩ := bind_eq_ok.mp ran
      cases ran
      apply fewer_trail (prepare_load_trail inv loaded)
      intro key
      exact (Nat.add_comm (keys.count key) _).le
  | completeLoad keys =>
      obtain ⟨manager, completed, ran⟩ := bind_eq_ok.mp ran
      cases ran
      exact complete_load_trail inv (load_pins_erase allowed) completed
  | touch keys =>
      cases ran
      exact quiet_trail inv (touch_quiet state.run.manager keys).books
  | requestFinished reqContext =>
      obtain ⟨manager, finished, ran⟩ := bind_eq_ok.mp ran
      cases ran
      exact quiet_trail inv (request_finished_quiet finished).books
  | scheduleEnd context =>
      obtain ⟨manager, ended, ran⟩ := bind_eq_ok.mp ran
      cases ran
      obtain ⟨polled, pollOk, quiet⟩ := schedule_end_quiet ended
      obtain ⟨closed, polledInv⟩ := maybe_process_trail inv honest pollOk
      exact quiet_trail polledInv (quiet closed)
  | drainFlushJobIds =>
      cases ran
      exact quiet_trail (drain_trail inv) (quiet_refl _).books
  | resetCache =>
      obtain ⟨manager, reset, ran⟩ := bind_eq_ok.mp ran
      cases ran
      exact reset_cache_trail inv (honest _ rfl) reset

theorem start_report_inv {policy : P} (tracked : TrackedPolicy.Tracked policy)
    (empty : ∀ key, CachePolicy.get policy key = none) (primaryParams : CpuManagerParams)
    (params : TieringParams) (tiers : List TierInfo) (answers : Nat → TierAnswer) :
    ReportInv (ReportRun.start policy primaryParams params tiers answers) := by
  have pool := new_steady primaryParams tracked empty
  have nothing : ∀ jobId, Trail.places {} (TieringOffloadingManager.new params
      (CPUOffloadingManager.new primaryParams policy) tiers answers) jobId = 0 := fun _ => rfl
  refine ⟨⟨pool, ?_, ?_⟩, ?_, fun jobId _ => nothing jobId, ?_, ?_, ?_⟩
  · exact fun jobId job running => by cases running
  · exact fun key owner found => by cases found
  · exact fun jobId tierIdx given => by cases given
  · exact fun jobId job running => by cases running
  · exact fun key owner found => by cases found
  · intro key
    have none : storePins (TieringOffloadingManager.new params
        (CPUOffloadingManager.new primaryParams policy) tiers answers) = 0 := map_total_empty _
    show (storePins (TieringOffloadingManager.new params
      (CPUOffloadingManager.new primaryParams policy) tiers answers)).count key + 0 ≤ _
    rw [none]
    simp

theorem reached_report_inv {policy : P} (tracked : TrackedPolicy.Tracked policy)
    (empty : ∀ key, CachePolicy.get policy key = none) {primaryParams : CpuManagerParams}
    {params : TieringParams} {tiers : List TierInfo} {answers : Nat → TierAnswer}
    {state : ReportRun P} (reaches : Reaches policy primaryParams params tiers answers state) :
    ReportInv state := by
  apply EventRuns.reaches_invariant ?_ ?_ reaches
  · exact fun before event after inv permitted applied => apply_report_inv inv permitted applied
  · exact start_report_inv tracked empty primaryParams params tiers answers

end Events

section LateReports

variable [CachePolicy P]

/-- The job left the running jobs before its report. -/
def ReportRun.Retracted (state : ReportRun P) (jobId : JobId) : Prop :=
  tolerates state.run.manager jobId = true ∨ jobId ∈ state.trail.resolved ∨
    jobId ∈ state.trail.dropped

instance (state : ReportRun P) (jobId : JobId) : Decidable (state.Retracted jobId) :=
  inferInstanceAs (Decidable (_ ∨ _ ∨ _))

theorem consume_stopped {manager after : TieringOffloadingManager P} {tierIdx : Nat}
    {result : JobResult} (stopped : manager.jobs.get? result.jobId = none)
    (consumed : manager.consumeResult tierIdx result = .ok after) :
    after.primaryTier = manager.primaryTier := by
  unfold TieringOffloadingManager.consumeResult at consumed
  split at consumed
  · cases consumed
    rfl
  · simp [stopped] at consumed

variable [LawfulCachePolicy P] [TrackedPolicy P] {trail : Trail} {loads : OffloadKey → Nat}

/-- At its turn a report finds its job as the poll found it. -/
structure Turn (trail : Trail) (loads : OffloadKey → Nat) (manager : TieringOffloadingManager P)
    (report : Report P) : Prop where
  jobs : report.manager.jobs.get? report.jobId = manager.jobs.get? report.jobId
  inv : ∃ noted : Trail, noted.given = trail.given ∧ TrailInv noted loads report.manager

theorem turn_later {manager middle : TieringOffloadingManager P} {first : List (Report P)}
    {report : Report P} (consumed : ConsumedAll trail loads manager first middle)
    (outside : report.jobId ∉ first.map Report.jobId)
    (turn : Turn (trail.noteAll first) loads middle report) : Turn trail loads manager report := by
  obtain ⟨noted, given, inv⟩ := turn.inv
  exact ⟨turn.jobs.trans (consumed.jobs report.jobId outside),
    noted, given.trans (note_all_frame first trail).1, inv⟩

theorem tier_reports_turn (results : List JobResult) {manager : TieringOffloadingManager P}
    {tierIdx : Nat} (inv : TrailInv trail loads manager)
    (honest : trail.Honest (tierReports manager tierIdx results)) :
    ∀ report ∈ tierReports manager tierIdx results, Turn trail loads manager report := by
  induction results generalizing manager trail with
  | nil => exact fun report member => by cases member
  | cons result rest ih =>
      intro report member
      have head := honest.2 ⟨manager, tierIdx, result⟩ List.mem_cons_self
      have now : Turn trail loads manager ⟨manager, tierIdx, result⟩ := ⟨rfl, trail, rfl, inv⟩
      cases step : manager.consumeResult tierIdx result with
      | error problem =>
          have reports : tierReports manager tierIdx (result :: rest) =
              [⟨manager, tierIdx, result⟩] := by
            rw [tierReports, step]
          rw [reports, List.mem_singleton] at member
          exact member ▸ now
      | ok middle =>
          have reports : tierReports manager tierIdx (result :: rest) =
              [⟨manager, tierIdx, result⟩] ++ tierReports middle tierIdx rest := by
            rw [tierReports, step]
            rfl
          rw [reports] at honest member
          rcases List.mem_append.mp member with first | later
          · exact List.mem_singleton.mp first ▸ now
          · obtain ⟨expected, ok, consumed⟩ := consume_result_done inv head.1 head.2
              (consume_result_accepted inv head.1 step)
            rw [step] at ok
            cases ok
            have whole : ConsumedAll trail loads manager [⟨manager, tierIdx, result⟩] middle :=
              ⟨consumed.inv, consumed.gate, fun jobId outside =>
                consumed.jobs jobId fun same => outside (List.mem_singleton.mpr same)⟩
            have apart := (List.nodup_append.mp (List.map_append ▸ honest.1)).2.2
            exact turn_later whole (fun here => apart _ here _ (List.mem_map_of_mem later) rfl)
              (ih consumed.inv (honest_append honest).2 report later)

theorem poll_reports_turn (tiers : List Nat) {manager : TieringOffloadingManager P}
    (inv : TrailInv trail loads manager) (honest : trail.Honest (pollReports manager tiers)) :
    ∀ report ∈ pollReports manager tiers, Turn trail loads manager report := by
  induction tiers generalizing manager trail with
  | nil => exact fun report member => by cases member
  | cons tierIdx rest ih =>
      intro report member
      have asked : SameTrail manager manager.next := ⟨rfl, rfl, rfl, rfl, rfl, rfl⟩
      have nextInv : TrailInv trail loads manager.next :=
        trail_inv_of_same inv asked inv.booked.pool inv.pinned
      cases step : manager.next.consumeResults tierIdx manager.answer.finished with
      | error problem =>
          have reports : pollReports manager (tierIdx :: rest) =
              tierReports manager.next tierIdx manager.answer.finished := by
            rw [pollReports, step]
            exact List.append_nil _
          rw [reports] at honest member
          obtain ⟨jobs, turn⟩ := tier_reports_turn _ nextInv honest report member
          exact ⟨jobs, turn⟩
      | ok middle =>
          have reports : pollReports manager (tierIdx :: rest) =
              tierReports manager.next tierIdx manager.answer.finished ++
                pollReports middle rest := by
            rw [pollReports, step]
          rw [reports] at honest member
          have firstHonest := (honest_append honest).1
          rcases List.mem_append.mp member with first | later
          · obtain ⟨jobs, turn⟩ := tier_reports_turn _ nextInv firstHonest report first
            exact ⟨jobs, turn⟩
          · obtain ⟨consumedInv, gate, jobs⟩ :=
              (consume_results_exact _ nextInv firstHonest).2 middle step
            have whole : ConsumedAll trail loads manager
                (tierReports manager.next tierIdx manager.answer.finished) middle :=
              ⟨consumedInv, gate, jobs⟩
            have apart := (List.nodup_append.mp (List.map_append ▸ honest.1)).2.2
            exact turn_later whole (fun here => apart _ here _ (List.mem_map_of_mem later) rfl)
              (ih whole.inv (honest_append honest).2 report later)

theorem retracted_stopped {state : ReportRun P} (inv : ReportInv state) {jobId : JobId}
    {tierIdx : Nat} (given : state.trail.given.get? jobId = some tierIdx)
    (retracted : state.Retracted jobId) : state.run.manager.jobs.get? jobId = none := by
  have placed := inv.placed jobId tierIdx given
  rw [Trail.places] at placed
  have stopped : (state.run.manager.jobs.contains jobId).toNat = 0 := by
    rcases retracted with late | resolved | dropped
    · rw [late, Bool.toNat_true] at placed
      omega
    · rw [decide_eq_true resolved, Bool.toNat_true] at placed
      omega
    · rw [decide_eq_true dropped, Bool.toNat_true] at placed
      omega
  exact Option.not_isSome_iff_eq_none.mp (Bool.eq_false_iff.mp (Bool.toNat_eq_zero.mp stopped))

/-- What an event polls with has the books of the manager before the event. -/
theorem poll_of_trail {manager polling : TieringOffloadingManager P} {event : TieringEvent}
    (inv : TrailInv trail loads manager) (polls : pollOf manager event = some polling) :
    TrailInv trail loads polling ∧ polling.jobs = manager.jobs := by
  have closing : TrailInv trail loads (manager.setProcessed true) :=
    ⟨⟨inv.booked.pool, inv.booked.jobs, inv.booked.owners⟩, inv.placed, inv.unborn, inv.jobs,
      inv.owners, inv.pinned⟩
  have gated : (if manager.processedJobsThisStep then none
      else some (manager.setProcessed true)) = some polling →
        TrailInv trail loads polling ∧ polling.jobs = manager.jobs := by
    intro opened
    split at opened
    · cases opened
    · cases opened
      exact ⟨closing, rfl⟩
  cases event with
  | lookup key reqContext => exact gated polls
  | prepareStore keys reqContext => exact gated polls
  | scheduleEnd context => exact gated polls
  | resetCache =>
      cases polls
      obtain ⟨same, primary⟩ := call_all_same manager .drainJobs
      refine ⟨trail_inv_of_same inv same (primary ▸ inv.booked.pool) fun key => ?_, same.jobs⟩
      rw [primary]
      exact inv.pinned key
  | newRequest reqContext => cases polls
  | completeStore index success => cases polls
  | prepareLoad keys => cases polls
  | completeLoad keys => cases polls
  | touch keys => cases polls
  | requestFinished reqContext => cases polls
  | drainFlushJobIds => cases polls

/-- A tier that has the key of the first lookup, a clock that stands at 0, then
at 100 and then at 1000, and a single report of job 0. -/
def slowTier (reportedAt index : Nat) : TierAnswer :=
  { now := if index < 7 then 0 else if index < 14 then 100 else 1000
    lookup := if index = 3 then .hit else .miss
    finished := if index = reportedAt then [⟨0, true, []⟩] else [] }

def slowStart (reportedAt : Nat) : ReportRun LruPolicy.LRUCachePolicy :=
  ReportRun.start (LruPolicy.LRUCachePolicy.new 2) { numBlocks := 2 } {} [{}]
    (slowTier reportedAt)

/-- The promotion of job 0 is submitted at time 0 and retracted at time 100. -/
def retractingEvents : List TieringEvent :=
  [.lookup ⟨[7], 0⟩ { reqId := 0 }, .scheduleEnd ⟨[], []⟩, .scheduleEnd ⟨[], []⟩]

end LateReports

end KvOffload.ReportRuns
