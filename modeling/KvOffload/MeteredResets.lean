import KvOffload.ReportRuns

/-!
# Resets of the tiering manager under its metrics

The tracker is told of every registered job and of every job that leaves by its
report; at a reset it asserts that it has no open job. A retracted promotion
leaves without telling the tracker, so one retraction makes every later reset
fail.
-/

namespace KvOffload.MeteredResets

open KvOffload KvOffload.Base KvOffload.PolicyInterface KvOffload.CpuManager
open KvOffload.CpuManagerSpec KvOffload.Tiering KvOffload.TieringOperations
open KvOffload.TieringRuns KvOffload.PolicyMoves KvOffload.TransferBooks
open KvOffload.ReportTrail KvOffload.ReportRuns

set_option autoImplicit false

variable {P : Type} [CachePolicy P]

/-- What a reset polls with: every tier was drained. -/
def draining (state : ReportRun P) : TieringOffloadingManager P :=
  state.run.manager.callAll .drainJobs

/-- `reset_cache` with the tracker's `assert_idle`: registered jobs are the given
ones, and the tracker was told of the finished ones. -/
def resetCache (state : ReportRun P) : Except PyError (ReportRun P) := do
  let after ← state.apply .resetCache
  pyAssert (∀ jobId ∈ after.trail.given.keys, jobId ∈ after.trail.finished)
  .ok after

/-- The drained tiers report every job that was not reported before. -/
def DrainsAll (state : ReportRun P) : Prop :=
  ∀ polled, (draining state).processFinishedJobs = .ok polled →
    ∀ jobId ∈ state.trail.given.keys, state.trail.Reported jobId ∨
      jobId ∈ (reportsOf (draining state)).map Report.jobId

/-- The reset returns with no running job and every job counted as finished once. -/
def ResetsIdle (state : ReportRun P) : Prop :=
  ∃ after, resetCache state = .ok after ∧ after.run.manager.jobs.entries = [] ∧
    ∀ jobId ∈ after.trail.given.keys, after.trail.finished.count jobId = 1

section Consumed

/-- A poll that returns consumes each of its reports. -/
theorem tier_reports_consumed (results : List JobResult)
    {manager after : TieringOffloadingManager P} {tierIdx : Nat}
    (consumed : manager.consumeResults tierIdx results = .ok after) :
    ∀ report ∈ tierReports manager tierIdx results, ∃ next,
      report.manager.consumeResult report.tierIdx report.result = .ok next := by
  induction results generalizing manager with
  | nil => exact fun report member => by cases member
  | cons result rest ih =>
      obtain ⟨middle, step, later⟩ := bind_eq_ok.mp consumed
      intro report member
      have reports : tierReports manager tierIdx (result :: rest) =
          ⟨manager, tierIdx, result⟩ :: tierReports middle tierIdx rest := by
        rw [tierReports, step]
      rw [reports] at member
      rcases List.mem_cons.mp member with rfl | inRest
      · exact ⟨middle, step⟩
      · exact ih later report inRest

theorem poll_reports_consumed (tiers : List Nat) {manager after : TieringOffloadingManager P}
    (polled : manager.pollTiers tiers = .ok after) :
    ∀ report ∈ pollReports manager tiers, ∃ next,
      report.manager.consumeResult report.tierIdx report.result = .ok next := by
  induction tiers generalizing manager with
  | nil => exact fun report member => by cases member
  | cons tierIdx rest ih =>
      obtain ⟨middle, step, later⟩ := bind_eq_ok.mp polled
      intro report member
      have reports : pollReports manager (tierIdx :: rest) =
          tierReports manager.next tierIdx manager.answer.finished ++
            pollReports middle rest := by
        rw [pollReports, step]
      rw [reports] at member
      rcases List.mem_append.mp member with first | inRest
      · exact tier_reports_consumed _ step report first
      · exact ih later report inRest

/-- A job that is not running is never reported as finished. -/
theorem finished_was_running {manager next : TieringOffloadingManager P} {tierIdx : Nat}
    {result : JobResult} (consumed : manager.consumeResult tierIdx result = .ok next)
    (sharp : tolerates manager result.jobId = false) :
    manager.jobs.contains result.jobId = true := by
  unfold TieringOffloadingManager.consumeResult at consumed
  split at consumed
  · rename_i held
    rw [(tolerates_iff _ _).mpr held] at sharp
    cases sharp
  · cases running : manager.jobs.get? result.jobId with
    | none => simp [running] at consumed
    | some job => exact Option.isSome_iff_exists.mpr ⟨job, running⟩

omit [CachePolicy P] in
theorem finished_note_all (reports : List (Report P)) (trail : Trail) {jobId : JobId}
    (finished : jobId ∈ (trail.noteAll reports).finished) :
    jobId ∈ trail.finished ∨ ∃ report ∈ reports, report.jobId = jobId ∧
      tolerates report.manager report.jobId = false := by
  induction reports generalizing trail with
  | nil => exact .inl finished
  | cons report rest ih =>
      rcases ih (trail.note report) finished with before | ⟨other, member, here⟩
      · unfold Trail.note at before
        split at before
        · exact .inl before
        · rename_i sharp
          rcases List.mem_append.mp before with old | new
          · exact .inl old
          · exact .inr ⟨report, List.mem_cons_self, (List.mem_singleton.mp new).symm,
              Bool.eq_false_iff.mpr sharp⟩
      · exact .inr ⟨other, List.mem_cons_of_mem _ member, here⟩

omit [CachePolicy P] in
theorem resolved_note_all (reports : List (Report P)) (trail : Trail) {jobId : JobId}
    (resolved : jobId ∈ (trail.noteAll reports).resolved) :
    jobId ∈ trail.resolved ∨ ∃ report ∈ reports, report.jobId = jobId ∧
      tolerates report.manager report.jobId = true := by
  induction reports generalizing trail with
  | nil => exact .inl resolved
  | cons report rest ih =>
      rcases ih (trail.note report) resolved with before | ⟨other, member, here⟩
      · unfold Trail.note at before
        split at before
        · rename_i late
          rcases Finset.mem_insert.mp before with new | old
          · exact .inr ⟨report, List.mem_cons_self, new.symm, late⟩
          · exact .inl old
        · exact .inl before
      · exact .inr ⟨other, List.mem_cons_of_mem _ member, here⟩

end Consumed

section Resets

variable {state after : ReportRun P}

/-- What a reset leaves of the trail of its poll. -/
structure ResetFrom (state : ReportRun P) (polled : TieringOffloadingManager P)
    (after : ReportRun P) : Prop where
  pollOk : (draining state).processFinishedJobs = .ok polled
  idle : polled.jobs = OrderedMap.empty
  jobs : after.run.manager.jobs = OrderedMap.empty
  given : after.trail.given = state.trail.given
  finished : after.trail.finished = (state.trail.noteAll (reportsOf (draining state))).finished

/-- The reset after a poll that left no job. -/
theorem reset_returns {polled : TieringOffloadingManager P}
    (pollOk : (draining state).processFinishedJobs = .ok polled)
    (idle : polled.jobs = OrderedMap.empty) :
    ∃ after, state.apply .resetCache = .ok after ∧ ResetFrom state polled after := by
  have empty : polled.jobs.entries.isEmpty = true := by rw [idle]; rfl
  generalize cleared_eq : ({ polled.withStorePends OrderedMap.empty OrderedMap.empty with
    pendingLoadSubmissions := OrderedMap.empty } : TieringOffloadingManager P) = cleared
  have reset : state.run.manager.resetCache = .ok ((cleared.resetRequests.withPrimary
      cleared.resetRequests.primaryTier.resetCache).setProcessed false) := by
    unfold TieringOffloadingManager.resetCache
    change (do
      let manager ← (draining state).processFinishedJobs
      _) = _
    rw [pollOk, ok_bind, py_assert_of empty, ok_bind, ← cleared_eq]
  have jobs : cleared.resetRequests.jobs = OrderedMap.empty := by
    rw [(reset_requests_same cleared).jobs, ← cleared_eq]
    exact idle
  have ran : state.run.apply .resetCache = .ok ⟨(cleared.resetRequests.withPrimary
      cleared.resetRequests.primaryTier.resetCache).setProcessed false, []⟩ := by
    rw [TieringRun.apply, reset, ok_bind]
  refine ⟨_, by rw [ReportRun.apply, ran, ok_bind], pollOk, idle, jobs, ?_, ?_⟩
  · change (Trail.give _ cleared.resetRequests.jobs).given = _
    rw [jobs]
    exact (note_all_frame _ state.trail).1
  · rfl

theorem reset_applied (reset : state.apply .resetCache = .ok after) :
    ∃ polled, ResetFrom state polled after := by
  obtain ⟨run, ran, _⟩ := bind_eq_ok.mp reset
  obtain ⟨manager, resetOk, _⟩ := bind_eq_ok.mp ran
  obtain ⟨polled, pollOk, resetOk⟩ := bind_eq_ok.mp resetOk
  obtain ⟨_, idle, _⟩ := bind_eq_ok.mp resetOk
  have noJobs : polled.jobs.entries = [] := by simpa using py_assert_eq_ok.mp idle
  obtain ⟨expected, ok, left⟩ := reset_returns pollOk (OrderedMap.ext_entries noJobs)
  rw [reset] at ok
  cases ok
  exact ⟨polled, left⟩

variable [LawfulCachePolicy P] [TrackedPolicy P]

theorem draining_inv (inv : ReportInv state) :
    TrailInv state.trail (loadPins state.loads) (draining state) ∧
      (draining state).jobs = state.run.manager.jobs := by
  have polls : pollOf state.run.manager .resetCache = some (draining state) := rfl
  exact poll_of_trail inv polls

/-- A retracted job stays unfinished through the poll of a reset. -/
theorem retracted_unfinished (inv : ReportInv state)
    (honest : state.trail.Honest (reportsOf (draining state)))
    {polled : TieringOffloadingManager P}
    (pollOk : (draining state).processFinishedJobs = .ok polled) {jobId : JobId} {tierIdx : Nat}
    (given : state.trail.given.get? jobId = some tierIdx) (retracted : state.Retracted jobId) :
    jobId ∉ (state.trail.noteAll (reportsOf (draining state))).finished := by
  obtain ⟨drainingInv, jobs⟩ := draining_inv inv
  have stopped := retracted_stopped inv given retracted
  intro finished
  rcases finished_note_all _ _ finished with before | ⟨report, member, rfl, sharp⟩
  · have placed := inv.placed jobId tierIdx given
    have counted : 0 < state.trail.finished.count jobId := List.count_pos_iff.mpr before
    rw [Trail.places] at placed
    rcases retracted with late | resolved | dropped
    · rw [late, Bool.toNat_true] at placed
      omega
    · rw [decide_eq_true resolved, Bool.toNat_true] at placed
      omega
    · rw [decide_eq_true dropped, Bool.toNat_true] at placed
      omega
  · obtain ⟨middle, tiersOk, _⟩ := bind_eq_ok.mp pollOk
    obtain ⟨next, consumed⟩ := poll_reports_consumed _ tiersOk report member
    have running := finished_was_running consumed sharp
    have turn := poll_reports_turn _ drainingInv honest report member
    have none : report.manager.jobs.get? report.jobId = none := turn.jobs.trans (jobs ▸ stopped)
    rw [OrderedMap.contains, show report.manager.jobs.get? report.result.jobId = Option.none
      from none] at running
    cases running

/-- A job that was never retracted is not resolved by the poll of a reset. -/
theorem running_unresolved (inv : ReportInv state)
    (honest : state.trail.Honest (reportsOf (draining state))) {jobId : JobId}
    (kept : ¬state.Retracted jobId) :
    jobId ∉ (state.trail.noteAll (reportsOf (draining state))).resolved := by
  obtain ⟨drainingInv, jobs⟩ := draining_inv inv
  obtain ⟨sharp, unresolved, undropped⟩ := (not_or.mp kept).imp_right not_or.mp
  intro resolved
  rcases resolved_note_all _ _ resolved with before | ⟨report, member, rfl, late⟩
  · exact unresolved before
  · obtain ⟨given, unreported⟩ := honest.2 report member
    have running := (open_somewhere inv given unreported undropped).resolve_right sharp
    have turn := poll_reports_turn _ drainingInv honest report member
    obtain ⟨noted, sameGiven, turnInv⟩ := turn.inv
    have placed := turnInv.placed report.jobId report.tierIdx (sameGiven ▸ given)
    have here : report.manager.jobs.contains report.jobId = true := by
      rw [OrderedMap.contains, turn.jobs, jobs]
      exact running
    rw [Trail.places, here, late, Bool.toNat_true] at placed
    omega

/-- With every job reported, the poll of a reset leaves no job. -/
theorem drained_idle {polled : TieringOffloadingManager P} {trail : Trail}
    {loads : OffloadKey → Nat} (inv : TrailInv trail loads polled)
    (reported : ∀ jobId tierIdx, trail.given.get? jobId = some tierIdx → trail.Reported jobId) :
    polled.jobs = OrderedMap.empty := by
  apply OrderedMap.ext_entries
  apply List.eq_nil_iff_forall_not_mem.mpr
  intro entry member
  have running := (polled.jobs.get_eq_some_iff entry.1 entry.2).mpr member
  have given := inv.jobs entry.1 entry.2 running
  have placed := inv.placed entry.1 _ given
  have contained : polled.jobs.contains entry.1 = true := by
    rw [OrderedMap.contains, running]
    rfl
  rw [Trail.places, contained, Bool.toNat_true] at placed
  rcases reported entry.1 _ given with finished | resolved
  · have counted : 0 < trail.finished.count entry.1 := List.count_pos_iff.mpr finished
    omega
  · rw [decide_eq_true resolved, Bool.toNat_true] at placed
    omega

omit [CachePolicy P] [LawfulCachePolicy P] [TrackedPolicy P] in
theorem given_key {trail : Trail} {jobId : JobId} :
    jobId ∈ trail.given.keys ↔ ∃ tierIdx, trail.given.get? jobId = some tierIdx :=
  (OrderedMap.mem_keys_iff _ _).trans Option.isSome_iff_exists

/-- A reset that returns polled its tiers, and no job was retracted. -/
theorem reset_unretracted (inv : ReportInv state)
    (honest : state.trail.Honest (reportsOf (draining state)))
    (reset : resetCache state = .ok after) :
    (∀ jobId ∈ state.trail.given.keys, ¬state.Retracted jobId) ∧
      ∃ polled, (draining state).processFinishedJobs = .ok polled := by
  obtain ⟨applied, ok, asserted⟩ := bind_eq_ok.mp reset
  obtain ⟨_, idle, done⟩ := bind_eq_ok.mp asserted
  cases done
  obtain ⟨polled, pollOk, _, _, given, finished⟩ := reset_applied ok
  refine ⟨fun jobId member retracted => ?_, polled, pollOk⟩
  obtain ⟨tierIdx, known⟩ := given_key.mp member
  have told := py_assert_eq_ok.mp idle jobId (given ▸ member)
  rw [finished] at told
  exact retracted_unfinished inv honest pollOk known retracted told

theorem resets_idle_iff (inv : ReportInv state)
    (honest : state.trail.Honest (reportsOf (draining state))) (drains : DrainsAll state) :
    ResetsIdle state ↔ (∀ jobId ∈ state.trail.given.keys, ¬state.Retracted jobId) ∧
      ∀ report ∈ reportsOf (draining state),
        state.trail.Accepts state.run.manager report.result := by
  obtain ⟨drainingInv, jobs⟩ := draining_inv inv
  obtain ⟨accepts, after⟩ := process_exact drainingInv honest
  have sameAccepts : AllAccepted state.trail (draining state) (reportsOf (draining state)) ↔
      ∀ report ∈ reportsOf (draining state),
        state.trail.Accepts state.run.manager report.result :=
    forall₂_congr fun report _ => accepts_congr rfl (by rw [jobs])
  rw [← sameAccepts, ← accepts]
  constructor
  · rintro ⟨last, reset, _, _⟩
    exact reset_unretracted inv honest reset
  · rintro ⟨unretracted, polled, pollOk⟩
    obtain ⟨polledInv, _⟩ := after polled pollOk
    have noted := note_all_frame (reportsOf (draining state)) state.trail
    have allReported : ∀ jobId tierIdx,
        (state.trail.noteAll (reportsOf (draining state))).given.get? jobId = some tierIdx →
          (state.trail.noteAll (reportsOf (draining state))).Reported jobId := by
      intro jobId tierIdx known
      rw [noted.1] at known
      exact (reported_note_all _ _ jobId).mpr
        (drains polled pollOk jobId (given_key.mpr ⟨tierIdx, known⟩))
    obtain ⟨last, ok, reset⟩ := reset_returns pollOk (drained_idle polledInv allReported)
    have once : ∀ jobId ∈ last.trail.given.keys, last.trail.finished.count jobId = 1 := by
      intro jobId member
      rw [reset.given] at member
      rw [reset.finished]
      obtain ⟨tierIdx, known⟩ := given_key.mp member
      have unresolved := running_unresolved inv honest (unretracted jobId member)
      have finished := (allReported jobId tierIdx (noted.1 ▸ known)).resolve_right unresolved
      have positive := List.count_pos_iff.mpr finished
      have placed := polledInv.placed jobId tierIdx (noted.1 ▸ known)
      rw [Trail.places] at placed
      omega
    refine ⟨last, ?_, by rw [reset.jobs]; rfl, once⟩
    have told : ∀ jobId ∈ last.trail.given.keys, jobId ∈ last.trail.finished := fun jobId member =>
      List.count_pos_iff.mp (by rw [once jobId member]; exact Nat.one_pos)
    rw [resetCache, ok, ok_bind, py_assert_of told, ok_bind]

end Resets

/-- Over every run with honest reports, a reset whose tiers drain all their jobs
returns idle exactly when no job was ever retracted and its partial reports are
well formed. -/
def ResetsExact (policy : P) : Prop :=
  ∀ primaryParams params tiers answers state,
    ReportRuns.Reaches policy primaryParams params tiers answers state →
    state.trail.Honest (reportsOf (draining state)) → DrainsAll state →
    (ResetsIdle state ↔ (∀ jobId ∈ state.trail.given.keys, ¬state.Retracted jobId) ∧
      ∀ report ∈ reportsOf (draining state),
        state.trail.Accepts state.run.manager report.result)

theorem lru_and_arc_resets_exact (cacheCapacity : Nat)
    (rounding : FloatRounding.Rounding) :
    ResetsExact (LruPolicy.LRUCachePolicy.new cacheCapacity) ∧
      ResetsExact (ArcPolicy.ARCCachePolicy.new cacheCapacity rounding) := by
  constructor
  · intro primaryParams params tiers answers state reaches honest drains
    have tracked : TrackedPolicy.Tracked (LruPolicy.LRUCachePolicy.new cacheCapacity) := by
      intro key
      simp [LruPolicy.LRUCachePolicy.new]
    exact resets_idle_iff (reached_report_inv tracked (fun _ => rfl) reaches) honest drains
  · intro primaryParams params tiers answers state reaches honest drains
    have tracked := ArcRepresentation.new_inv cacheCapacity rounding
    exact resets_idle_iff (reached_report_inv tracked (fun _ => rfl) reaches) honest drains

/-- The drained tier reports the running promotion and the reset returns. -/
theorem running_job_resets_idle :
    ∃ state : ReportRun LruPolicy.LRUCachePolicy, state.run.manager.jobs.keys = [0] ∧
      ResetsIdle state := by
  have ran : (EventRuns.replay ReportRun.apply ReportRun.Permitted (slowStart 6)
      [.lookup ⟨[7], 0⟩ { reqId := 0 }, .scheduleEnd ⟨[], []⟩]).map (fun state =>
        (state.run.manager.jobs.keys, decide (state.trail.Honest (reportsOf (draining state))),
          state.trail.given.keys, (reportsOf (draining state)).map Report.jobId,
          decide (state.Retracted 0) || decide (0 ∈ state.trail.dropped) ||
            !(reportsOf (draining state)).all fun report => report.result.success)) =
      some ([0], true, [0], [0], false) := by decide +kernel
  obtain ⟨state, reaches, seen⟩ := EventRuns.exists_of_replay ran
  simp only [Prod.mk.injEq] at seen
  obtain ⟨jobs, honest, given, reports, clean⟩ := seen
  simp only [Bool.or_eq_false_iff, decide_eq_false_iff_not, Bool.not_eq_false',
    List.all_eq_true] at clean
  obtain ⟨⟨kept, undropped⟩, successes⟩ := clean
  have drains : DrainsAll state := by
    intro polled _ jobId member
    rw [given] at member
    rw [reports]
    exact .inr member
  refine ⟨state, jobs, ((lru_and_arc_resets_exact 2 .exact).1 _ _ _ _ state reaches
    (of_decide_eq_true honest) drains).mpr ⟨?_, fun report member => ⟨?_, ?_⟩⟩⟩
  · intro jobId member
    rw [given] at member
    rw [List.mem_singleton.mp member]
    exact kept
  · have listed := List.mem_map_of_mem (f := Report.jobId) member
    rw [reports] at listed
    change report.jobId ∉ _
    rw [List.mem_singleton.mp listed]
    exact undropped
  · intro job _ _ failed
    have succeeded := successes report member
    rw [failed] at succeeded
    cases succeeded

/-- A promotion is retracted, the drained tier reports it, and the tracker's
assertion fails. -/
theorem retracted_job_fails_reset :
    ∃ state : ReportRun LruPolicy.LRUCachePolicy,
      ReportRuns.Reaches (LruPolicy.LRUCachePolicy.new 2) { numBlocks := 2 } {} [{}]
        (slowTier 11) state ∧
      state.trail.Honest (reportsOf (draining state)) ∧ DrainsAll state ∧
      (∃ after, state.apply .resetCache = .ok after) ∧
      resetCache state = .error .assertionError ∧ ¬ResetsIdle state := by
  have ran : (EventRuns.replay ReportRun.apply ReportRun.Permitted (slowStart 11)
      retractingEvents).map (fun state =>
        (decide (state.trail.Honest (reportsOf (draining state))), state.trail.given.keys,
          (reportsOf (draining state)).map Report.jobId, raised (state.apply .resetCache),
          raised (resetCache state))) =
      some (true, [0], [0], none, some .assertionError) := by decide +kernel
  obtain ⟨state, reaches, seen⟩ := EventRuns.exists_of_replay ran
  simp only [Prod.mk.injEq] at seen
  obtain ⟨honest, given, reports, applies, raises⟩ := seen
  have failed := raised_eq_some.mp raises
  refine ⟨state, reaches, of_decide_eq_true honest, ?_, raised_eq_none.mp applies, failed, ?_⟩
  · intro polled _ jobId member
    rw [given] at member
    rw [reports]
    exact .inr member
  · rintro ⟨after, reset, _⟩
    rw [failed] at reset
    cases reset

end KvOffload.MeteredResets
