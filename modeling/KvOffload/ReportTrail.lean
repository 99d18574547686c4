import KvOffload.TransferBooks

/-!
# Trail of the tier reports

Every job that was given to a tier is in one place: running, finished by its
report, retracted and still tolerated, resolved by a tolerated report, or
dropped by a drain whose tolerance was over. A poll raises exactly on a report
of a dropped job or on a partial report with keys that the job does not have.
-/

namespace KvOffload.ReportTrail

open KvOffload KvOffload.Base KvOffload.PolicyInterface KvOffload.FiniteTotals
open KvOffload.CpuManager KvOffload.CpuPool KvOffload.CpuManagerSpec KvOffload.Tiering
open KvOffload.TieringSlots KvOffload.TieringPolling KvOffload.PinnedBlocks
open KvOffload.PolicyMoves KvOffload.TransferBooks

set_option autoImplicit false

variable {P : Type}

/-- One report and the manager at hand when it is consumed. -/
structure Report (P : Type) where
  manager : TieringOffloadingManager P
  tierIdx : Nat
  result : JobResult

def Report.jobId (report : Report P) : JobId := report.result.jobId

section Reports

variable [CachePolicy P]

def tierReports (manager : TieringOffloadingManager P) (tierIdx : Nat) :
    List JobResult → List (Report P)
  | [] => []
  | result :: rest =>
      ⟨manager, tierIdx, result⟩ :: match manager.consumeResult tierIdx result with
        | .ok after => tierReports after tierIdx rest
        | .error _ => []

/-- The reports of one poll, up to one that raises. -/
def pollReports (manager : TieringOffloadingManager P) : List Nat → List (Report P)
  | [] => []
  | tierIdx :: rest =>
      tierReports manager.next tierIdx manager.answer.finished ++
        match manager.next.consumeResults tierIdx manager.answer.finished with
        | .ok after => pollReports after rest
        | .error _ => []

def reportsOf (manager : TieringOffloadingManager P) : List (Report P) :=
  pollReports manager (List.range manager.secondaryTiers.length)

end Reports

/-- The manager still remembers that the job was retracted. -/
def tolerates (manager : TieringOffloadingManager P) (jobId : JobId) : Bool :=
  decide (jobId ∈ manager.retractedJobIds) || manager.drainedRetractedJobIds.contains jobId

theorem tolerates_iff (manager : TieringOffloadingManager P) (jobId : JobId) :
    tolerates manager jobId = true ↔ jobId ∈ manager.retractedJobIds ∨
      manager.drainedRetractedJobIds.contains jobId = true := by
  rw [tolerates, Bool.or_eq_true, decide_eq_true_eq]

/-- `given` has the tier of every job; the finished jobs are in the order of
their reports. -/
structure Trail where
  given : OrderedMap JobId Nat := OrderedMap.empty
  finished : List JobId := []
  resolved : Finset JobId := ∅
  dropped : Finset JobId := ∅

namespace Trail

def note (trail : Trail) (report : Report P) : Trail :=
  if tolerates report.manager report.jobId then
    { trail with resolved := insert report.jobId trail.resolved }
  else { trail with finished := trail.finished ++ [report.jobId] }

def noteAll (trail : Trail) (reports : List (Report P)) : Trail := reports.foldl note trail

def Reported (trail : Trail) (jobId : JobId) : Prop :=
  jobId ∈ trail.finished ∨ jobId ∈ trail.resolved

instance (trail : Trail) (jobId : JobId) : Decidable (trail.Reported jobId) :=
  inferInstanceAs (Decidable (_ ∨ _))

/-- Each report is of a job that was given to the tier and not reported yet. -/
def Honest (trail : Trail) (reports : List (Report P)) : Prop :=
  (reports.map Report.jobId).Nodup ∧ ∀ report ∈ reports,
    trail.given.get? report.jobId = some report.tierIdx ∧ ¬trail.Reported report.jobId

instance (trail : Trail) (reports : List (Report P)) : Decidable (trail.Honest reports) :=
  inferInstanceAs (Decidable (_ ∧ _))

/-- The job was not dropped, and a partial report of a running promotion only
names keys of the promotion. -/
def Accepts (trail : Trail) (manager : TieringOffloadingManager P) (result : JobResult) : Prop :=
  result.jobId ∉ trail.dropped ∧ ∀ job ∈ manager.jobs.get? result.jobId,
    job.transferJob.isPromotion = true → result.success = false →
      ∀ key ∈ result.successfulKeys, key ∈ job.transferJob.keys

def places (trail : Trail) (manager : TieringOffloadingManager P) (jobId : JobId) : Nat :=
  (manager.jobs.contains jobId).toNat + trail.finished.count jobId +
    (tolerates manager jobId).toNat + (decide (jobId ∈ trail.resolved)).toNat +
    (decide (jobId ∈ trail.dropped)).toNat

end Trail

variable [CachePolicy P] [LawfulCachePolicy P] [TrackedPolicy P]

/-- `loads` counts the pins that loads to the GPU will release. -/
structure TrailInv (trail : Trail) (loads : OffloadKey → Nat)
    (manager : TieringOffloadingManager P) : Prop where
  booked : Booked manager
  placed : ∀ jobId tierIdx, trail.given.get? jobId = some tierIdx →
    trail.places manager jobId = 1
  unborn : ∀ jobId, manager.jobIdCounter ≤ jobId → trail.places manager jobId = 0
  jobs : ∀ jobId job, manager.jobs.get? jobId = some job →
    trail.given.get? jobId = some job.tierIdx
  owners : ∀ key owner, manager.storePendingOwner.get? key = some owner →
    trail.given.get? owner.2 = none
  pinned : ∀ key, (storePins manager).count key + loads key ≤ pins manager.primaryTier key

section Frames

variable {trail : Trail} {loads : OffloadKey → Nat} {manager after : TieringOffloadingManager P}

omit [CachePolicy P] [LawfulCachePolicy P] [TrackedPolicy P] in
theorem places_congr (same : SameTrail manager after) (jobId : JobId) :
    trail.places after jobId = trail.places manager jobId := by
  rw [Trail.places, Trail.places, tolerates, tolerates, same.jobs, same.retracted, same.drained]

theorem trail_inv_of_same (inv : TrailInv trail loads manager) (same : SameTrail manager after)
    {loadsAfter : OffloadKey → Nat} (pool : Steady after.primaryTier)
    (pinned : ∀ key, (storePins manager).count key + loadsAfter key ≤
      pins after.primaryTier key) : TrailInv trail loadsAfter after := by
  refine ⟨⟨pool, ?_, ?_⟩, ?_, ?_, ?_, ?_, ?_⟩
  · rw [same.jobs, same.counter]
    exact inv.booked.jobs
  · rw [same.owners, same.counter]
    exact inv.booked.owners
  · intro jobId tierIdx given
    rw [places_congr same]
    exact inv.placed jobId tierIdx given
  · intro jobId late
    rw [places_congr same]
    exact inv.unborn jobId (same.counter ▸ late)
  · rw [same.jobs]
    exact inv.jobs
  · rw [same.owners]
    exact inv.owners
  · intro key
    simpa only [storePins, same.jobs] using pinned key

/-- A job that was given to a tier has a number below the counter. -/
theorem given_below (inv : TrailInv trail loads manager) {jobId : JobId} {tierIdx : Nat}
    (given : trail.given.get? jobId = some tierIdx) : jobId < manager.jobIdCounter := by
  by_contra late
  have placed := inv.placed jobId tierIdx given
  rw [inv.unborn jobId (not_lt.mp late)] at placed
  exact absurd placed (by decide)

/-- A dropped job is neither running nor tolerated. -/
theorem dropped_elsewhere (inv : TrailInv trail loads manager) {jobId : JobId} {tierIdx : Nat}
    (given : trail.given.get? jobId = some tierIdx) (dropped : jobId ∈ trail.dropped) :
    manager.jobs.contains jobId = false ∧ tolerates manager jobId = false := by
  have placed := inv.placed jobId tierIdx given
  rw [Trail.places, decide_eq_true dropped, Bool.toNat_true] at placed
  exact ⟨Bool.toNat_eq_zero.mp (by omega), Bool.toNat_eq_zero.mp (by omega)⟩

/-- A job with no report is running, tolerated or dropped. -/
theorem open_somewhere (inv : TrailInv trail loads manager) {jobId : JobId} {tierIdx : Nat}
    (given : trail.given.get? jobId = some tierIdx) (unreported : ¬trail.Reported jobId)
    (kept : jobId ∉ trail.dropped) :
    manager.jobs.contains jobId = true ∨ tolerates manager jobId = true := by
  by_contra nowhere
  obtain ⟨stopped, forgotten⟩ := not_or.mp nowhere
  obtain ⟨unfinished, unresolved⟩ := not_or.mp unreported
  have placed := inv.placed jobId tierIdx given
  rw [Trail.places, Bool.eq_false_of_not_eq_true stopped, Bool.eq_false_of_not_eq_true forgotten,
    decide_eq_false unresolved, decide_eq_false kept, List.count_eq_zero.mpr unfinished] at placed
  exact absurd placed (by decide)

end Frames

section Consuming

variable {trail : Trail} {loads : OffloadKey → Nat} {manager : TieringOffloadingManager P}

theorem complete_write_done (pool : Steady manager.primaryTier) (keys : List OffloadKey)
    (success : Bool) : ∃ primary, manager.completeWrite keys success =
      .ok (manager.withPrimary primary) ∧ Steady primary ∧
        ∀ key, pins primary key = pins manager.primaryTier key := by
  obtain ⟨primary, ok, afterPool, same, _⟩ := complete_store_returns pool keys success
  exact ⟨primary, by rw [TieringOffloadingManager.completeWrite, ok, ok_bind], afterPool, same⟩

omit [CachePolicy P] [LawfulCachePolicy P] [TrackedPolicy P] in
theorem suppress_same (manager : TieringOffloadingManager P) (keys : List OffloadKey) :
    SameTrail manager (manager.suppressPromotionFailures keys) ∧
      (manager.suppressPromotionFailures keys).primaryTier = manager.primaryTier := by
  unfold TieringOffloadingManager.suppressPromotionFailures
  split <;> exact ⟨⟨rfl, rfl, rfl, rfl, rfl, rfl⟩, rfl⟩

theorem promotion_split_ok_iff (job : TransferJob) (result : JobResult) :
    (∃ split, TieringOffloadingManager.promotionSplit job result = .ok split) ↔
      (result.success = false → ∀ key ∈ result.successfulKeys, key ∈ job.keys) := by
  unfold TieringOffloadingManager.promotionSplit
  cases success : result.success with
  | true => simp
  | false =>
      by_cases none : result.successfulKeys = []
      · simp [none]
      · simp only [Bool.false_eq_true, if_false, none, forall_const]
        constructor
        · rintro ⟨split, ok⟩
          obtain ⟨_, known, _⟩ := bind_eq_ok.mp ok
          exact py_assert_eq_ok.mp known
        · intro known
          exact ⟨_, by rw [py_assert_of known, ok_bind]⟩

theorem complete_promotion_done (pool : Steady manager.primaryTier) {job : TransferJob}
    {result : JobResult} {split : List OffloadKey × List OffloadKey}
    (splits : TieringOffloadingManager.promotionSplit job result = .ok split) :
    ∃ after, manager.completePromotion job result = .ok after ∧ SameTrail manager after ∧
      Steady after.primaryTier ∧
        ∀ key, pins after.primaryTier key = pins manager.primaryTier key := by
  obtain ⟨successful, failed⟩ := split
  obtain ⟨stored, storeOk, storedPool, storedPins⟩ := complete_write_done pool successful true
  have storedTier : Steady (manager.withPrimary stored).primaryTier := storedPool
  obtain ⟨dropped, dropOk, droppedPool, droppedPins⟩ :=
    complete_write_done storedTier failed false
  have same : ∀ key, pins dropped key = pins manager.primaryTier key := fun key =>
    (droppedPins key).trans (storedPins key)
  rw [TieringOffloadingManager.completePromotion, splits, ok_bind]
  dsimp only
  rw [storeOk, ok_bind, dropOk, ok_bind]
  split
  · exact ⟨_, rfl, ⟨rfl, rfl, rfl, rfl, rfl, rfl⟩, droppedPool, same⟩
  · refine ⟨_, rfl, ?_⟩
    obtain ⟨trails, primary⟩ := suppress_same
      ((((manager.withPrimary stored).withPrimary dropped).forgetPromotionFailures
        successful).fillLedger (TieringOffloadingManager.reservationsOf job successful)) failed
    rw [primary]
    exact ⟨⟨trails.counter, trails.jobs, trails.owners, trails.retracted, trails.drained, trails.gate⟩,
      droppedPool, same⟩

omit [CachePolicy P] [LawfulCachePolicy P] [TrackedPolicy P] in
theorem contains_erase (jobs : OrderedMap JobId JobMetadata) (erased jobId : JobId) :
    (jobs.erase erased).contains jobId = (decide (jobId ≠ erased) && jobs.contains jobId) := by
  rw [OrderedMap.contains, OrderedMap.contains, OrderedMap.get_erase]
  by_cases same : jobId = erased <;> simp [same]

omit [CachePolicy P] [LawfulCachePolicy P] [TrackedPolicy P] in
theorem count_snoc (finished : List JobId) (added jobId : JobId) :
    (finished ++ [added]).count jobId = finished.count jobId + (decide (jobId = added)).toNat := by
  rw [List.count_append, List.count_singleton]
  by_cases same : jobId = added
  · simp [same]
  · simp [same, Ne.symm same]

omit [CachePolicy P] [LawfulCachePolicy P] [TrackedPolicy P] in
/-- A finished job was running before and is nowhere else. -/
theorem places_pop (trail : Trail) {jobId : JobId} (running : manager.jobs.contains jobId = true)
    (otherId : JobId) :
    { trail with finished := trail.finished ++ [jobId] }.places (manager.popJob jobId) otherId =
      trail.places manager otherId := by
  have left : (manager.popJob jobId).jobs = manager.jobs.erase jobId := rfl
  have late : tolerates (manager.popJob jobId) otherId = tolerates manager otherId := rfl
  rw [Trail.places, Trail.places, left, late, contains_erase, count_snoc]
  by_cases same : otherId = jobId
  · subst same
    simp only [running, ne_eq, not_true_eq_false, decide_false, decide_true, Bool.false_and,
      Bool.toNat_false, Bool.toNat_true]
    omega
  · simp only [same, ne_eq, not_false_eq_true, decide_false, decide_true, Bool.true_and,
      Bool.toNat_false, add_zero]

/-- The job of a report leaves the running jobs; its pins are free to be released. -/
theorem pop_inv (inv : TrailInv trail loads manager) {jobId : JobId} {job : JobMetadata}
    (running : manager.jobs.get? jobId = some job) :
    TrailInv { trail with finished := trail.finished ++ [jobId] }
      (fun key => loads key + (jobPins job).count key) (manager.popJob jobId) := by
  have contained : manager.jobs.contains jobId = true := by rw [OrderedMap.contains, running]; rfl
  have total : storePins (manager.popJob jobId) + jobPins job = storePins manager := by
    have erased := map_total_erase manager.jobs jobId jobPins
    rwa [running, Option.elim_some] at erased
  refine ⟨⟨inv.booked.pool, ?_, inv.booked.owners⟩, ?_, ?_, ?_, inv.owners, ?_⟩
  · exact fun otherId other found => inv.booked.jobs otherId other (jobs_erase_get found)
  · intro otherId tierIdx given
    rw [places_pop trail contained]
    exact inv.placed otherId tierIdx given
  · intro otherId late
    rw [places_pop trail contained]
    exact inv.unborn otherId late
  · exact fun otherId other found => inv.jobs otherId other (jobs_erase_get found)
  · intro key
    have before := inv.pinned key
    rw [← total, Multiset.count_add] at before
    show _ ≤ pins manager.primaryTier key
    omega

omit [CachePolicy P] [LawfulCachePolicy P] [TrackedPolicy P] in
/-- A tolerated report only moves its job from the tolerated to the resolved ones. -/
theorem places_resolve (trail : Trail) (after : TieringOffloadingManager P) {jobId : JobId}
    (placed : trail.places manager jobId = 1) (late : tolerates manager jobId = true)
    (jobs : after.jobs = manager.jobs)
    (forgets : ∀ otherId, tolerates after otherId =
      (decide (otherId ≠ jobId) && tolerates manager otherId)) (otherId : JobId) :
    { trail with resolved := insert jobId trail.resolved }.places after otherId =
      trail.places manager otherId := by
  have member : decide (otherId ∈ insert jobId trail.resolved) =
      (decide (otherId = jobId) || decide (otherId ∈ trail.resolved)) := by
    simp only [Finset.mem_insert, Bool.decide_or]
  rw [Trail.places] at placed ⊢
  rw [Trail.places, jobs, forgets, member]
  by_cases same : otherId = jobId
  · subst same
    rw [late, Bool.toNat_true] at placed ⊢
    have fresh : (decide (otherId ∈ trail.resolved)).toNat = 0 := by omega
    rw [Bool.toNat_eq_zero] at fresh
    simp only [fresh, ne_eq, not_true_eq_false, decide_false, decide_true, Bool.false_and,
      Bool.true_or, Bool.toNat_false, Bool.toNat_true]
  · simp only [same, ne_eq, not_false_eq_true, decide_false, decide_true, Bool.true_and,
      Bool.false_or]

omit [CachePolicy P] [LawfulCachePolicy P] [TrackedPolicy P] in
/-- The tolerated ids after a report are those before, without its own. -/
theorem tolerates_erase (manager : TieringOffloadingManager P) (jobId otherId : JobId) :
    tolerates { manager with
      retractedJobIds := manager.retractedJobIds.erase jobId
      drainedRetractedJobIds := manager.drainedRetractedJobIds.erase jobId } otherId =
      (decide (otherId ≠ jobId) && tolerates manager otherId) := by
  unfold tolerates OrderedMap.contains
  rw [OrderedMap.get_erase]
  by_cases same : otherId = jobId
  · simp [same]
  · simp [same]

/-- What consuming a report leaves behind. -/
structure Consumed (trail : Trail) (loads : OffloadKey → Nat)
    (manager : TieringOffloadingManager P) (tierIdx : Nat) (result : JobResult)
    (after : TieringOffloadingManager P) : Prop where
  inv : TrailInv (trail.note ⟨manager, tierIdx, result⟩) loads after
  gate : after.processedJobsThisStep = manager.processedJobsThisStep
  jobs : ∀ jobId, jobId ≠ result.jobId → after.jobs.get? jobId = manager.jobs.get? jobId

theorem consume_late {tierIdx : Nat} {result : JobResult} (inv : TrailInv trail loads manager)
    (given : trail.given.get? result.jobId = some tierIdx)
    (late : tolerates manager result.jobId = true) :
    ∃ after, manager.consumeResult tierIdx result = .ok after ∧
      Consumed trail loads manager tierIdx result after := by
  unfold TieringOffloadingManager.consumeResult
  rw [if_pos ((tolerates_iff manager result.jobId).mp late)]
  have noted : trail.note (⟨manager, tierIdx, result⟩ : Report P) =
      { trail with resolved := insert result.jobId trail.resolved } := if_pos late
  have resolve := places_resolve trail { manager with
      retractedJobIds := manager.retractedJobIds.erase result.jobId
      drainedRetractedJobIds := manager.drainedRetractedJobIds.erase result.jobId }
    (inv.placed _ tierIdx given) late rfl (tolerates_erase manager result.jobId)
  refine ⟨_, rfl, ⟨?_, rfl, fun _ _ => rfl⟩⟩
  rw [noted]
  refine ⟨⟨inv.booked.pool, inv.booked.jobs, inv.booked.owners⟩, ?_, ?_, inv.jobs, inv.owners,
    inv.pinned⟩
  · intro otherId otherTier otherGiven
    rw [resolve]
    exact inv.placed otherId otherTier otherGiven
  · intro otherId unborn
    rw [resolve]
    exact inv.unborn otherId unborn

theorem finish_job_done {tierIdx : Nat} {result : JobResult} {job : JobMetadata}
    {jobId : JobId} (inv : TrailInv trail loads manager)
    (running : manager.jobs.get? jobId = some job)
    (given : trail.given.get? jobId = some tierIdx)
    (known : job.transferJob.isPromotion = true → result.success = false →
      ∀ key ∈ result.successfulKeys, key ∈ job.transferJob.keys) :
    ∃ after, (manager.popJob jobId).finishJob tierIdx job result = .ok after ∧
      after.jobs = (manager.popJob jobId).jobs ∧
      after.processedJobsThisStep = manager.processedJobsThisStep ∧
      TrailInv { trail with finished := trail.finished ++ [jobId] } loads after := by
  have popped := pop_inv inv running
  have tier : job.tierIdx = tierIdx := by
    have both := inv.jobs jobId job running
    rw [given] at both
    exact (Option.some.inj both).symm
  unfold TieringOffloadingManager.finishJob
  rw [py_assert_of tier, ok_bind]
  cases promotion : job.transferJob.isPromotion with
  | true =>
      obtain ⟨split, splits⟩ := (promotion_split_ok_iff job.transferJob result).mpr
        (known promotion)
      obtain ⟨after, ok, same, pool, samePins⟩ := complete_promotion_done popped.booked.pool splits
      refine ⟨after, ok, same.jobs, same.gate, trail_inv_of_same popped same pool fun key => ?_⟩
      have before := popped.pinned key
      rw [samePins]
      omega
  | false =>
      have released : jobPins job = (job.transferJob.keys : Multiset OffloadKey) := by
        rw [jobPins, promotion]
        rfl
      have enough : ∀ key ∈ job.transferJob.keys,
          job.transferJob.keys.count key ≤ pins (manager.popJob jobId).primaryTier key := by
        intro key _
        have before := popped.pinned key
        rw [released, Multiset.coe_count] at before
        omega
      obtain ⟨primary, ok⟩ :=
        complete_load_returns job.transferJob.keys popped.booked.pool enough
      obtain ⟨pool, after⟩ := complete_load_spec job.transferJob.keys popped.booked.pool ok
      have same : SameTrail (manager.popJob jobId) ((manager.popJob jobId).withPrimary primary) :=
        ⟨rfl, rfl, rfl, rfl, rfl, rfl⟩
      refine ⟨(manager.popJob jobId).withPrimary primary, ?_, rfl, rfl,
        trail_inv_of_same popped same pool fun key => ?_⟩
      · simp only [Bool.false_eq_true, if_false]
        rw [ok, ok_bind]
      · have before := popped.pinned key
        have release := after key
        rw [released, Multiset.coe_count] at before
        show _ ≤ pins primary key
        omega

/-- An accepted report of a given job that was not reported before is consumed. -/
theorem consume_result_done {tierIdx : Nat} {result : JobResult}
    (inv : TrailInv trail loads manager)
    (given : trail.given.get? result.jobId = some tierIdx)
    (unreported : ¬trail.Reported result.jobId) (accepted : trail.Accepts manager result) :
    ∃ after, manager.consumeResult tierIdx result = .ok after ∧
      Consumed trail loads manager tierIdx result after := by
  by_cases late : tolerates manager result.jobId = true
  · exact consume_late inv given late
  · have contained := (open_somewhere inv given unreported accepted.1).resolve_right late
    obtain ⟨job, running⟩ := Option.isSome_iff_exists.mp contained
    obtain ⟨after, ok, jobs, gate, afterInv⟩ :=
      finish_job_done inv running given (accepted.2 job running)
    have noted : trail.note (⟨manager, tierIdx, result⟩ : Report P) =
        { trail with finished := trail.finished ++ [result.jobId] } := if_neg late
    refine ⟨after, ?_, ⟨noted ▸ afterInv, gate, fun otherId different => ?_⟩⟩
    · unfold TieringOffloadingManager.consumeResult
      rw [if_neg (fun held => late ((tolerates_iff _ _).mpr held)), running]
      exact ok
    · rw [jobs]
      exact manager.jobs.get_erase_of_ne different

/-- Any other report of a given job raises. -/
theorem consume_result_accepted {tierIdx : Nat} {result : JobResult}
    {after : TieringOffloadingManager P} (inv : TrailInv trail loads manager)
    (given : trail.given.get? result.jobId = some tierIdx)
    (consumed : manager.consumeResult tierIdx result = .ok after) :
    trail.Accepts manager result := by
  unfold TieringOffloadingManager.consumeResult at consumed
  split at consumed
  · rename_i held
    have late := (tolerates_iff _ _).mpr held
    have placed := inv.placed _ tierIdx given
    rw [Trail.places, late, Bool.toNat_true] at placed
    constructor
    · intro dropped
      exact absurd (dropped_elsewhere inv given dropped).2 (by rw [late]; decide)
    · intro job running
      have contained : manager.jobs.contains result.jobId = true :=
        Option.isSome_iff_exists.mpr ⟨job, running⟩
      rw [contained, Bool.toNat_true] at placed
      omega
  · cases running : manager.jobs.get? result.jobId with
    | none => simp [running] at consumed
    | some job =>
        simp only [running] at consumed
        have contained : manager.jobs.contains result.jobId = true :=
          Option.isSome_iff_exists.mpr ⟨job, running⟩
        refine ⟨fun dropped => ?_, fun other found promotion => ?_⟩
        · have stopped := (dropped_elsewhere inv given dropped).1
          rw [contained] at stopped
          cases stopped
        · rw [running] at found
          cases found
          obtain ⟨_, _, finished⟩ := bind_eq_ok.mp consumed
          rw [if_pos promotion] at finished
          obtain ⟨split, splits, _⟩ := bind_eq_ok.mp finished
          exact (promotion_split_ok_iff _ _).mp ⟨split, splits⟩

end Consuming

section Noting

variable {trail : Trail}

omit [CachePolicy P] [LawfulCachePolicy P] [TrackedPolicy P] in
theorem note_frame (trail : Trail) (report : Report P) :
    (trail.note report).given = trail.given ∧ (trail.note report).dropped = trail.dropped := by
  unfold Trail.note
  split <;> exact ⟨rfl, rfl⟩

omit [CachePolicy P] [LawfulCachePolicy P] [TrackedPolicy P] in
theorem note_all_frame (reports : List (Report P)) (trail : Trail) :
    (trail.noteAll reports).given = trail.given ∧
      (trail.noteAll reports).dropped = trail.dropped := by
  induction reports generalizing trail with
  | nil => exact ⟨rfl, rfl⟩
  | cons report rest ih =>
      obtain ⟨given, dropped⟩ := note_frame trail report
      obtain ⟨laterGiven, laterDropped⟩ := ih (trail.note report)
      exact ⟨laterGiven.trans given, laterDropped.trans dropped⟩

omit [CachePolicy P] [LawfulCachePolicy P] [TrackedPolicy P] in
theorem reported_note (trail : Trail) (report : Report P) (jobId : JobId) :
    (trail.note report).Reported jobId ↔ trail.Reported jobId ∨ jobId = report.jobId := by
  unfold Trail.note Trail.Reported
  split
  · rw [Finset.mem_insert]
    tauto
  · rw [List.mem_append, List.mem_singleton]
    tauto

omit [CachePolicy P] [LawfulCachePolicy P] [TrackedPolicy P] in
theorem reported_note_all (reports : List (Report P)) (trail : Trail) (jobId : JobId) :
    (trail.noteAll reports).Reported jobId ↔
      trail.Reported jobId ∨ jobId ∈ reports.map Report.jobId := by
  induction reports generalizing trail with
  | nil => simp [Trail.noteAll]
  | cons report rest ih =>
      have step := ih (trail.note report)
      rw [reported_note] at step
      rw [List.map_cons, List.mem_cons, ← or_assoc]
      exact step

omit [CachePolicy P] [LawfulCachePolicy P] [TrackedPolicy P] in
theorem honest_append {first second : List (Report P)}
    (honest : trail.Honest (first ++ second)) :
    trail.Honest first ∧ (trail.noteAll first).Honest second := by
  obtain ⟨distinct, each⟩ := honest
  rw [List.map_append, List.nodup_append] at distinct
  refine ⟨⟨distinct.1, fun report member => each report (List.mem_append_left _ member)⟩,
    distinct.2.1, fun report member => ?_⟩
  obtain ⟨given, unreported⟩ := each report (List.mem_append_right _ member)
  refine ⟨(note_all_frame first trail).1 ▸ given, fun reported => ?_⟩
  rcases (reported_note_all first trail report.jobId).mp reported with before | here
  · exact unreported before
  · exact distinct.2.2 _ here _ (List.mem_map_of_mem member) rfl

omit [CachePolicy P] [LawfulCachePolicy P] [TrackedPolicy P] in
theorem accepts_congr {later : Trail} {manager after : TieringOffloadingManager P}
    {result : JobResult} (dropped : later.dropped = trail.dropped)
    (jobs : after.jobs.get? result.jobId = manager.jobs.get? result.jobId) :
    later.Accepts after result ↔ trail.Accepts manager result := by
  rw [Trail.Accepts, Trail.Accepts, dropped, jobs]

end Noting

section Polling

variable {trail : Trail} {loads : OffloadKey → Nat} {manager : TieringOffloadingManager P}

/-- What consuming a list of reports leaves behind. -/
structure ConsumedAll (trail : Trail) (loads : OffloadKey → Nat)
    (manager : TieringOffloadingManager P) (reports : List (Report P))
    (after : TieringOffloadingManager P) : Prop where
  inv : TrailInv (trail.noteAll reports) loads after
  gate : after.processedJobsThisStep = manager.processedJobsThisStep
  jobs : ∀ jobId, jobId ∉ reports.map Report.jobId →
    after.jobs.get? jobId = manager.jobs.get? jobId

def AllAccepted (trail : Trail) (manager : TieringOffloadingManager P)
    (reports : List (Report P)) : Prop :=
  ∀ report ∈ reports, trail.Accepts manager report.result

/-- Two rounds of reports are accepted as one when the first leaves the second's jobs alone. -/
theorem all_accepted_append {first second : List (Report P)}
    {middle : TieringOffloadingManager P} (honest : trail.Honest (first ++ second))
    (consumed : ConsumedAll trail loads manager first middle) :
    AllAccepted trail manager (first ++ second) ↔ AllAccepted trail manager first ∧
      AllAccepted (trail.noteAll first) middle second := by
  have apart := (List.nodup_append.mp (List.map_append ▸ honest.1)).2.2
  have same : ∀ report ∈ second, (trail.noteAll first).Accepts middle report.result ↔
      trail.Accepts manager report.result := by
    intro report member
    refine accepts_congr (note_all_frame first trail).2 (consumed.jobs _ fun here => ?_)
    exact apart _ here _ (List.mem_map_of_mem member) rfl
  constructor
  · intro all
    exact ⟨fun report member => all report (List.mem_append_left _ member),
      fun report member => (same report member).mpr (all report (List.mem_append_right _ member))⟩
  · rintro ⟨left, right⟩ report member
    rcases List.mem_append.mp member with inFirst | inSecond
    · exact left report inFirst
    · exact (same report inSecond).mp (right report inSecond)

theorem consumed_all_append {first second : List (Report P)}
    {middle after : TieringOffloadingManager P}
    (left : ConsumedAll trail loads manager first middle)
    (right : ConsumedAll (trail.noteAll first) loads middle second after) :
    ConsumedAll trail loads manager (first ++ second) after := by
  refine ⟨?_, right.gate.trans left.gate, fun jobId outside => ?_⟩
  · have later := right.inv
    rwa [Trail.noteAll, Trail.noteAll, ← List.foldl_append] at later
  · rw [List.map_append, List.mem_append, not_or] at outside
    exact (right.jobs jobId outside.2).trans (left.jobs jobId outside.1)

/-- The answer of one tier is consumed exactly when all its reports are accepted. -/
theorem consume_results_exact (results : List JobResult) {tierIdx : Nat}
    (inv : TrailInv trail loads manager)
    (honest : trail.Honest (tierReports manager tierIdx results)) :
    ((∃ after, manager.consumeResults tierIdx results = .ok after) ↔
      AllAccepted trail manager (tierReports manager tierIdx results)) ∧
    ∀ after, manager.consumeResults tierIdx results = .ok after →
      ConsumedAll trail loads manager (tierReports manager tierIdx results) after := by
  induction results generalizing manager trail with
  | nil =>
      refine ⟨⟨fun _ report member => ?_, fun _ => ⟨manager, rfl⟩⟩, fun after done => ?_⟩
      · cases member
      · cases done
        exact ⟨inv, rfl, fun _ _ => rfl⟩
  | cons result rest ih =>
      unfold TieringOffloadingManager.consumeResults
      have head := honest.2 ⟨manager, tierIdx, result⟩ List.mem_cons_self
      cases step : manager.consumeResult tierIdx result with
      | error problem =>
          refine ⟨⟨?_, fun all => ?_⟩, ?_⟩
          · rintro ⟨after, done⟩
            cases done
          · obtain ⟨after, ok, _⟩ := consume_result_done inv head.1 head.2
              (all _ List.mem_cons_self)
            rw [step] at ok
            cases ok
          · intro after done
            cases done
      | ok middle =>
          have reports : tierReports manager tierIdx (result :: rest) =
              [⟨manager, tierIdx, result⟩] ++ tierReports middle tierIdx rest := by
            rw [tierReports, step]
            rfl
          rw [reports] at honest ⊢
          have accepted := consume_result_accepted inv head.1 step
          obtain ⟨expected, ok, consumed⟩ := consume_result_done inv head.1 head.2 accepted
          rw [step] at ok
          cases ok
          have first : ConsumedAll trail loads manager [⟨manager, tierIdx, result⟩] middle :=
            ⟨consumed.inv, consumed.gate, fun jobId outside =>
              consumed.jobs jobId fun same => outside (List.mem_singleton.mpr same)⟩
          obtain ⟨exact, later⟩ := ih consumed.inv (honest_append honest).2
          rw [ok_bind, all_accepted_append honest first]
          refine ⟨exact.trans ⟨fun all => ⟨?_, all⟩, And.right⟩, fun after done => ?_⟩
          · intro report member
            rw [List.mem_singleton.mp member]
            exact accepted
          · exact consumed_all_append first (later after done)

/-- A poll of tiers consumes their answers exactly when all the reports are accepted. -/
theorem poll_tiers_exact (tiers : List Nat) (inv : TrailInv trail loads manager)
    (honest : trail.Honest (pollReports manager tiers)) :
    ((∃ after, manager.pollTiers tiers = .ok after) ↔
      AllAccepted trail manager (pollReports manager tiers)) ∧
    ∀ after, manager.pollTiers tiers = .ok after →
      ConsumedAll trail loads manager (pollReports manager tiers) after := by
  induction tiers generalizing manager trail with
  | nil =>
      refine ⟨⟨fun _ report member => ?_, fun _ => ⟨manager, rfl⟩⟩, fun after done => ?_⟩
      · cases member
      · cases done
        exact ⟨inv, rfl, fun _ _ => rfl⟩
  | cons tierIdx rest ih =>
      unfold TieringOffloadingManager.pollTiers
      have asked : SameTrail manager manager.next := ⟨rfl, rfl, rfl, rfl, rfl, rfl⟩
      have nextInv : TrailInv trail loads manager.next :=
        trail_inv_of_same inv asked inv.booked.pool inv.pinned
      cases step : manager.next.consumeResults tierIdx manager.answer.finished with
      | error problem =>
          have reports : pollReports manager (tierIdx :: rest) =
              tierReports manager.next tierIdx manager.answer.finished := by
            rw [pollReports, step]
            exact List.append_nil _
          rw [reports] at honest ⊢
          obtain ⟨exact, _⟩ := consume_results_exact _ nextInv honest
          refine ⟨⟨?_, fun all => ?_⟩, ?_⟩
          · rintro ⟨after, done⟩
            cases done
          · obtain ⟨after, ok⟩ := exact.mpr all
            rw [step] at ok
            cases ok
          · intro after done
            cases done
      | ok middle =>
          have reports : pollReports manager (tierIdx :: rest) =
              tierReports manager.next tierIdx manager.answer.finished ++
                pollReports middle rest := by
            rw [pollReports, step]
          rw [reports] at honest ⊢
          obtain ⟨exact, consumed⟩ :=
            consume_results_exact _ nextInv (honest_append honest).1
          have first : ConsumedAll trail loads manager
              (tierReports manager.next tierIdx manager.answer.finished) middle :=
            ⟨(consumed middle step).inv, (consumed middle step).gate, (consumed middle step).jobs⟩
          have accepted : AllAccepted trail manager
              (tierReports manager.next tierIdx manager.answer.finished) := exact.mp ⟨middle, step⟩
          obtain ⟨restExact, later⟩ := ih first.inv (honest_append honest).2
          rw [ok_bind, all_accepted_append honest first]
          exact ⟨restExact.trans ⟨fun all => ⟨accepted, all⟩, And.right⟩,
            fun after done => consumed_all_append first (later after done)⟩

end Polling

section Expiring

variable {trail : Trail} {loads : OffloadKey → Nat} {manager : TieringOffloadingManager P}

omit [CachePolicy P] [LawfulCachePolicy P] [TrackedPolicy P] in
theorem tolerates_add (manager : TieringOffloadingManager P) (added jobId : JobId) :
    tolerates (manager.addRetracted added) jobId =
      (decide (jobId = added) || tolerates manager jobId) := by
  rw [tolerates, tolerates, TieringOffloadingManager.addRetracted, ← Bool.or_assoc]
  simp only [Finset.mem_insert, Bool.decide_or]

/-- A retracted promotion goes from the running to the tolerated jobs. -/
theorem retract_promotion_done {jobId : JobId} {job : JobMetadata}
    (inv : TrailInv trail loads manager) (running : manager.jobs.get? jobId = some job) :
    ∃ after, manager.retractPromotion jobId = .ok after ∧ TrailInv trail loads after ∧
      after.jobs = manager.jobs.erase jobId ∧
      after.processedJobsThisStep = manager.processedJobsThisStep := by
  have popped := pop_inv inv running
  have contained : manager.jobs.contains jobId = true := by rw [OrderedMap.contains, running]; rfl
  obtain ⟨primary, writeOk, pool, samePins⟩ :=
    complete_write_done popped.booked.pool job.transferJob.keys false
  have placesSame : ∀ otherId, trail.places ((manager.popJob jobId).addRetracted jobId) otherId =
      trail.places manager otherId := by
    intro otherId
    have placed := inv.placed jobId job.tierIdx (inv.jobs jobId job running)
    have left : ((manager.popJob jobId).addRetracted jobId).jobs = manager.jobs.erase jobId := rfl
    have late : tolerates (manager.popJob jobId) otherId = tolerates manager otherId := rfl
    rw [Trail.places, contained, Bool.toNat_true] at placed
    rw [Trail.places, Trail.places, left, contains_erase, tolerates_add, late]
    by_cases same : otherId = jobId
    · subst same
      have awake : tolerates manager otherId = false := Bool.toNat_eq_zero.mp (by omega)
      simp only [contained, awake, ne_eq, not_true_eq_false, decide_false, decide_true,
        Bool.false_and, Bool.true_or, Bool.toNat_false, Bool.toNat_true]
      omega
    · simp only [same, ne_eq, not_false_eq_true, decide_false, decide_true, Bool.true_and,
        Bool.false_or]
  have retracted : TrailInv trail loads ((manager.popJob jobId).addRetracted jobId) := by
    refine ⟨⟨inv.booked.pool, popped.booked.jobs, inv.booked.owners⟩, ?_, ?_, popped.jobs,
      inv.owners, fun key => ?_⟩
    · intro otherId tierIdx given
      rw [placesSame]
      exact inv.placed otherId tierIdx given
    · intro otherId late
      rw [placesSame]
      exact inv.unborn otherId late
    · have before := popped.pinned key
      show _ ≤ pins (manager.popJob jobId).primaryTier key
      exact (Nat.add_le_add_left (Nat.le_add_right _ _) _).trans before
  unfold TieringOffloadingManager.retractPromotion
  simp only [running]
  have writes : ((manager.popJob jobId).addRetracted jobId).completeWrite job.transferJob.keys
      false = .ok (((manager.popJob jobId).addRetracted jobId).withPrimary primary) := by
    obtain ⟨done, ok, same⟩ := bind_eq_ok.mp writeOk
    cases same
    exact bind_eq_ok.mpr ⟨primary, ok, rfl⟩
  rw [writes, ok_bind]
  refine ⟨_, rfl, ?_, ?_, ?_⟩
  · obtain ⟨same, samePrimary⟩ := suppress_same
      (((manager.popJob jobId).addRetracted jobId).withPrimary primary) job.transferJob.keys
    have whole : SameTrail ((manager.popJob jobId).addRetracted jobId)
        ((((manager.popJob jobId).addRetracted jobId).withPrimary
          primary).suppressPromotionFailures job.transferJob.keys) :=
      ⟨same.counter, same.jobs, same.owners, same.retracted, same.drained, same.gate⟩
    refine trail_inv_of_same retracted whole (samePrimary ▸ pool) fun key => ?_
    rw [samePrimary]
    exact (retracted.pinned key).trans (samePins key).ge
  · exact (suppress_same _ _).1.jobs
  · exact (suppress_same _ _).1.gate

theorem retract_promotions_done (jobIds : List JobId) (inv : TrailInv trail loads manager)
    (distinct : jobIds.Nodup) (running : ∀ jobId ∈ jobIds, manager.jobs.contains jobId = true) :
    ∃ after, manager.retractPromotions jobIds = .ok after ∧ TrailInv trail loads after ∧
      after.processedJobsThisStep = manager.processedJobsThisStep := by
  induction jobIds generalizing manager with
  | nil => exact ⟨manager, rfl, inv, rfl⟩
  | cons jobId rest ih =>
      obtain ⟨job, found⟩ := Option.isSome_iff_exists.mp (running jobId List.mem_cons_self)
      obtain ⟨fresh, distinct⟩ := List.nodup_cons.mp distinct
      obtain ⟨middle, ok, middleInv, jobs, gate⟩ := retract_promotion_done inv found
      have left : ∀ otherId ∈ rest, middle.jobs.contains otherId = true := by
        intro otherId member
        have different : otherId ≠ jobId := fun same => fresh (same ▸ member)
        rw [jobs, contains_erase, decide_eq_true different]
        exact running otherId (List.mem_cons_of_mem _ member)
      obtain ⟨after, restOk, afterInv, restGate⟩ := ih middleInv distinct left
      exact ⟨after, by rw [TieringOffloadingManager.retractPromotions, ok, ok_bind, restOk],
        afterInv, restGate.trans gate⟩

theorem expire_promotions_done (inv : TrailInv trail loads manager) :
    ∃ after, manager.expireStalePromotions = .ok after ∧ TrailInv trail loads after ∧
      after.processedJobsThisStep = manager.processedJobsThisStep := by
  unfold TieringOffloadingManager.expireStalePromotions
  split
  · exact ⟨manager, rfl, inv, rfl⟩
  · have asked : SameTrail manager manager.next := ⟨rfl, rfl, rfl, rfl, rfl, rfl⟩
    have nextInv : TrailInv trail loads manager.next :=
      trail_inv_of_same inv asked inv.booked.pool inv.pinned
    apply retract_promotions_done _ nextInv
    · exact manager.jobs.keys_nodup.sublist (List.filter_sublist.map Prod.fst)
    · intro jobId member
      obtain ⟨entry, entryMember, rfl⟩ := List.mem_map.mp member
      exact Option.isSome_iff_exists.mpr ⟨entry.2,
        (manager.jobs.get_eq_some_iff entry.1 entry.2).mpr (List.mem_of_mem_filter entryMember)⟩

/-- A retracted store batch is no job of a tier. -/
theorem add_batch_inv {batchJobId : JobId} (inv : TrailInv trail loads manager)
    (fresh : trail.given.get? batchJobId = none) (known : batchJobId < manager.jobIdCounter) :
    TrailInv trail loads (manager.addRetracted batchJobId) := by
  have placesSame : ∀ jobId, jobId ≠ batchJobId →
      trail.places (manager.addRetracted batchJobId) jobId = trail.places manager jobId := by
    intro jobId different
    rw [Trail.places, Trail.places, tolerates_add, decide_eq_false different, Bool.false_or]
    rfl
  refine ⟨⟨inv.booked.pool, inv.booked.jobs, inv.booked.owners⟩, ?_, ?_, inv.jobs, inv.owners,
    inv.pinned⟩
  · intro jobId tierIdx given
    rw [placesSame]
    · exact inv.placed jobId tierIdx given
    · rintro rfl
      rw [fresh] at given
      cases given
  · intro jobId late
    rw [placesSame jobId (known.trans_le late).ne']
    exact inv.unborn jobId late

theorem retract_store_pends_done (groups : List (JobId × List OffloadKey))
    (inv : TrailInv trail loads manager)
    (batches : ∀ group ∈ groups, trail.given.get? group.1 = none ∧
      group.1 < manager.jobIdCounter) :
    ∃ after, manager.retractStorePends groups = .ok after ∧ TrailInv trail loads after ∧
      after.processedJobsThisStep = manager.processedJobsThisStep := by
  induction groups generalizing manager with
  | nil => exact ⟨manager, rfl, inv, rfl⟩
  | cons group rest ih =>
      obtain ⟨batchJobId, keys⟩ := group
      obtain ⟨fresh, known⟩ := batches _ List.mem_cons_self
      have marked := add_batch_inv inv fresh known
      obtain ⟨primary, ok, pool, samePins⟩ := complete_write_done marked.booked.pool keys false
      have same : SameTrail (manager.addRetracted batchJobId)
          ((manager.addRetracted batchJobId).withPrimary primary).countRetracted :=
        ⟨rfl, rfl, rfl, rfl, rfl, rfl⟩
      have middle : TrailInv trail loads
          ((manager.addRetracted batchJobId).withPrimary primary).countRetracted :=
        trail_inv_of_same marked same pool fun key =>
          (marked.pinned key).trans (samePins key).ge
      obtain ⟨after, restOk, afterInv, gate⟩ :=
        ih middle fun group member => batches group (List.mem_cons_of_mem _ member)
      exact ⟨after, by rw [TieringOffloadingManager.retractStorePends, ok, ok_bind, restOk],
        afterInv, gate⟩

omit [CachePolicy P] [LawfulCachePolicy P] [TrackedPolicy P] in
/-- Disarming stops timers; the batches of the groups are those of the dropped owners. -/
theorem disarm_all_batches (keys : List OffloadKey) (manager : TieringOffloadingManager P)
    (groups : OrderedMap JobId (List OffloadKey)) :
    ∃ deadlines owners groupsAfter,
      keys.foldl TieringOffloadingManager.disarmExpired (manager, groups) =
        (manager.withStorePends deadlines owners, groupsAfter) ∧
      (∀ key owner, owners.get? key = some owner →
        manager.storePendingOwner.get? key = some owner) ∧
      ∀ batch, groupsAfter.contains batch = true → groups.contains batch = true ∨
        ∃ key owner, manager.storePendingOwner.get? key = some owner ∧ owner.2 = batch := by
  induction keys generalizing manager groups with
  | nil => exact ⟨_, _, _, rfl, fun _ _ found => found, fun _ held => .inl held⟩
  | cons first rest ih =>
      have fewer : ∀ key owner, (manager.storePendingOwner.erase first).get? key = some owner →
          manager.storePendingOwner.get? key = some owner := by
        intro key owner found
        rw [OrderedMap.get_erase] at found
        split at found
        · cases found
        · exact found
      rw [List.foldl_cons]
      unfold TieringOffloadingManager.disarmExpired
      simp only
      split
      · obtain ⟨deadlines, owners, after, done, kept, batches⟩ := ih
          (manager.withStorePends (manager.storePendingDeadline.erase first)
            (manager.storePendingOwner.erase first)) groups
        refine ⟨deadlines, owners, after, done, fun key owner found =>
          fewer key owner (kept key owner found), fun batch held => ?_⟩
        rcases batches batch held with before | ⟨key, owner, found, same⟩
        · exact .inl before
        · exact .inr ⟨key, owner, fewer key owner found, same⟩
      · rename_i reqContext batchJobId held
        obtain ⟨deadlines, owners, after, done, kept, batches⟩ := ih
          (manager.withStorePends (manager.storePendingDeadline.erase first)
            (manager.storePendingOwner.erase first))
          (groups.set batchJobId ((groups.get? batchJobId).getD [] ++ [first]))
        refine ⟨deadlines, owners, after, done, fun key owner found =>
          fewer key owner (kept key owner found), fun batch listed => ?_⟩
        rcases batches batch listed with before | ⟨key, owner, found, same⟩
        · by_cases same : batch = batchJobId
          · exact .inr ⟨first, (reqContext, batchJobId), held, same.symm⟩
          · left
            rwa [OrderedMap.contains, groups.get_set_of_ne _ same] at before
        · exact .inr ⟨key, owner, fewer key owner found, same⟩

theorem expire_store_pends_done (inv : TrailInv trail loads manager) :
    ∃ after, manager.expireStaleStorePends = .ok after ∧ TrailInv trail loads after ∧
      after.processedJobsThisStep = manager.processedJobsThisStep := by
  unfold TieringOffloadingManager.expireStaleStorePends
  split
  · exact ⟨manager, rfl, inv, rfl⟩
  · simp only
    generalize manager.expiredStorePends manager.answer.now = keys
    obtain ⟨deadlines, owners, groups, disarmed, fewer, batches⟩ :=
      disarm_all_batches keys manager.next OrderedMap.empty
    rw [disarmed]
    simp only
    have disarmedInv : TrailInv trail loads (manager.next.withStorePends deadlines owners) :=
      ⟨⟨inv.booked.pool, inv.booked.jobs, fun key owner found =>
          inv.booked.owners key owner (fewer key owner found)⟩, inv.placed, inv.unborn, inv.jobs,
        fun key owner found => inv.owners key owner (fewer key owner found), inv.pinned⟩
    apply retract_store_pends_done _ disarmedInv
    intro group member
    have found := (groups.get_eq_some_iff group.1 group.2).mpr member
    rcases batches group.1 (Option.isSome_iff_exists.mpr ⟨group.2, found⟩) with
      empty | ⟨key, owner, held, same⟩
    · simp [OrderedMap.contains] at empty
    · exact same ▸ ⟨inv.owners key owner held, inv.booked.owners key owner held⟩

/-- A poll returns exactly when all its reports are accepted. -/
theorem process_exact (inv : TrailInv trail loads manager)
    (honest : trail.Honest (reportsOf manager)) :
    ((∃ after, manager.processFinishedJobs = .ok after) ↔
      AllAccepted trail manager (reportsOf manager)) ∧
    ∀ after, manager.processFinishedJobs = .ok after →
      TrailInv (trail.noteAll (reportsOf manager)) loads after ∧
        after.processedJobsThisStep = manager.processedJobsThisStep := by
  obtain ⟨exact, consumed⟩ := poll_tiers_exact _ inv honest
  have whole : ∀ polled, manager.pollTiers (List.range manager.secondaryTiers.length) =
      .ok polled → ∃ after, manager.processFinishedJobs = .ok after ∧
        TrailInv (trail.noteAll (reportsOf manager)) loads after ∧
          after.processedJobsThisStep = manager.processedJobsThisStep := by
    intro polled pollOk
    obtain ⟨promoted, promoteOk, promotedInv, promoteGate⟩ :=
      expire_promotions_done (consumed polled pollOk).inv
    obtain ⟨after, expireOk, afterInv, expireGate⟩ := expire_store_pends_done promotedInv
    refine ⟨after, ?_, afterInv,
      expireGate.trans (promoteGate.trans (consumed polled pollOk).gate)⟩
    rw [TieringOffloadingManager.processFinishedJobs, pollOk, ok_bind, promoteOk, ok_bind, expireOk]
  constructor
  · refine Iff.trans ⟨?_, ?_⟩ exact
    · rintro ⟨after, done⟩
      obtain ⟨polled, pollOk, _⟩ := bind_eq_ok.mp done
      exact ⟨polled, pollOk⟩
    · rintro ⟨polled, pollOk⟩
      obtain ⟨after, done, _⟩ := whole polled pollOk
      exact ⟨after, done⟩
  · intro after done
    obtain ⟨polled, pollOk, _⟩ := bind_eq_ok.mp done
    obtain ⟨expected, ok, afterInv⟩ := whole polled pollOk
    rw [done] at ok
    cases ok
    exact afterInv

end Expiring

end KvOffload.ReportTrail
