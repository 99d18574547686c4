import KvOffload.ReportRuns

/-!
# Late reports

A retracted job stays tolerable until a drain has handed its id out and a drain more than
600 seconds later has pruned it. The drains of a run are recorded with their clock
readings, and a poll raises exactly on the first report of a job that is overdue by these
times, or on a partial report with keys that the job does not have.
-/

namespace KvOffload.LateReports

open KvOffload KvOffload.Base KvOffload.PolicyInterface KvOffload.CpuManager KvOffload.CpuPool
open KvOffload.Tiering KvOffload.TieringPolling KvOffload.TieringOperations
open KvOffload.TieringRuns KvOffload.PolicyMoves KvOffload.TransferBooks
open KvOffload.ReportTrail KvOffload.ReportRuns

set_option autoImplicit false

variable {P : Type}

/-- A drain: the ids it hands out with the time, and the reading it prunes by. -/
structure Drain where
  jobIds : Finset JobId
  handedAt : Rat
  prunedAt : Rat

def drainOf (manager : TieringOffloadingManager P) : Drain :=
  ⟨manager.retractedJobIds, manager.answer.now, manager.next.answer.now⟩

/-- A drain of the run, the latest first, pruned more than 600 seconds after it or an
earlier one had handed the id out. -/
def Overdue (jobId : JobId) : List Drain → Prop
  | [] => False
  | latest :: earlier =>
      (∃ drain ∈ latest :: earlier, jobId ∈ drain.jobIds ∧ drain.handedAt + 600 < latest.prunedAt) ∨
        Overdue jobId earlier

instance decidableOverdue (jobId : JobId) : DecidablePred (Overdue jobId)
  | [] => inferInstanceAs (Decidable False)
  | _ :: earlier =>
      have := decidableOverdue jobId earlier
      inferInstanceAs (Decidable (_ ∨ Overdue jobId earlier))

theorem overdue_handed {jobId : JobId} {drains : List Drain} (overdue : Overdue jobId drains) :
    ∃ drain ∈ drains, jobId ∈ drain.jobIds := by
  induction drains with
  | nil => exact overdue.elim
  | cons latest earlier ih =>
      rcases overdue with ⟨drain, member, handed, _⟩ | before
      · exact ⟨drain, member, handed⟩
      · obtain ⟨drain, member, handed⟩ := ih before
        exact ⟨drain, List.mem_cons_of_mem _ member, handed⟩

/-- A run with its drains. -/
structure TimedRun (P : Type) where
  state : ReportRun P
  drains : List Drain

namespace TimedRun

variable [CachePolicy P]

def drainsAfter (timed : TimedRun P) : TieringEvent → List Drain
  | .drainFlushJobIds => drainOf timed.state.run.manager :: timed.drains
  | _ => timed.drains

def apply (timed : TimedRun P) (event : TieringEvent) : Except PyError (TimedRun P) := do
  let state ← timed.state.apply event
  .ok ⟨state, timed.drainsAfter event⟩

def Permitted (timed : TimedRun P) (event : TieringEvent) : Prop :=
  timed.state.Permitted event

instance (timed : TimedRun P) (event : TieringEvent) : Decidable (timed.Permitted event) :=
  inferInstanceAs (Decidable (timed.state.Permitted event))

def start (policy : P) (primaryParams : CpuManagerParams) (params : TieringParams)
    (tiers : List TierInfo) (answers : Nat → TierAnswer) : TimedRun P :=
  ⟨ReportRun.start policy primaryParams params tiers answers, []⟩

end TimedRun

/-- Runs of a new manager in front of any tiers and any clock, with their drains. -/
def TimedReaches [CachePolicy P] (policy : P) (primaryParams : CpuManagerParams)
    (params : TieringParams) (tiers : List TierInfo) (answers : Nat → TierAnswer)
    (timed : TimedRun P) : Prop :=
  EventRuns.Reaches TimedRun.apply TimedRun.Permitted
    (TimedRun.start policy primaryParams params tiers answers) timed

theorem timed_state [CachePolicy P] {policy : P} {primaryParams : CpuManagerParams}
    {params : TieringParams} {tiers : List TierInfo} {answers : Nat → TierAnswer}
    {timed : TimedRun P} (reaches : TimedReaches policy primaryParams params tiers answers timed) :
    Reaches policy primaryParams params tiers answers timed.state := by
  apply EventRuns.reaches_project TimedRun.state _ reaches
  intro before event after permitted applied
  obtain ⟨state, ran, done⟩ := bind_eq_ok.mp applied
  cases done
  exact ⟨event, permitted, ran⟩

section Polls

variable [CachePolicy P]

/-- What a poll leaves of the ids: no job starts, and only a job that ran or a batch of
pending stores is retracted. -/
structure Polled (manager after : TieringOffloadingManager P) : Prop where
  counter : after.jobIdCounter = manager.jobIdCounter
  jobs : ∀ jobId, after.jobs.contains jobId = true → manager.jobs.contains jobId = true
  owners : ∀ key owner, after.storePendingOwner.get? key = some owner →
    manager.storePendingOwner.get? key = some owner
  retracted : ∀ jobId ∈ after.retractedJobIds, jobId ∈ manager.retractedJobIds ∨
    manager.jobs.contains jobId = true ∨
      ∃ key owner, manager.storePendingOwner.get? key = some owner ∧ owner.2 = jobId
  drained : ∀ jobId deadline, after.drainedRetractedJobIds.get? jobId = some deadline →
    manager.drainedRetractedJobIds.get? jobId = some deadline

variable {manager middle after : TieringOffloadingManager P}

omit [CachePolicy P] in
theorem Polled.trans (first : Polled manager middle) (later : Polled middle after) :
    Polled manager after where
  counter := later.counter.trans first.counter
  jobs jobId running := first.jobs jobId (later.jobs jobId running)
  owners key owner found := first.owners key owner (later.owners key owner found)
  retracted jobId member := by
    rcases later.retracted jobId member with before | running | ⟨key, owner, found, same⟩
    · exact first.retracted jobId before
    · exact .inr (.inl (first.jobs jobId running))
    · exact .inr (.inr ⟨key, owner, first.owners key owner found, same⟩)
  drained jobId deadline found := first.drained jobId deadline (later.drained jobId deadline found)

omit [CachePolicy P] in
theorem polled_of_same (same : SameTrail manager after) : Polled manager after where
  counter := same.counter
  jobs jobId running := by rwa [same.jobs] at running
  owners key owner found := by rwa [same.owners] at found
  retracted jobId member := .inl (by rwa [same.retracted] at member)
  drained jobId deadline found := by rwa [same.drained] at found

omit [CachePolicy P] in
theorem same_refl (manager : TieringOffloadingManager P) : SameTrail manager manager :=
  ⟨rfl, rfl, rfl, rfl, rfl, rfl⟩

omit [CachePolicy P] in
theorem pop_polled (manager : TieringOffloadingManager P) (jobId : JobId) :
    Polled manager (manager.popJob jobId) where
  counter := rfl
  jobs otherId running := by
    have running : (manager.jobs.erase jobId).contains otherId = true := running
    rw [contains_erase, Bool.and_eq_true] at running
    exact running.2
  owners _ _ found := found
  retracted _ member := .inl member
  drained _ _ found := found

theorem complete_write_same {keys : List OffloadKey} {success : Bool}
    (written : manager.completeWrite keys success = .ok after) : SameTrail manager after := by
  obtain ⟨primary, _, done⟩ := bind_eq_ok.mp written
  cases done
  exact ⟨rfl, rfl, rfl, rfl, rfl, rfl⟩

theorem complete_promotion_same {job : TransferJob} {result : JobResult}
    (completed : manager.completePromotion job result = .ok after) : SameTrail manager after := by
  obtain ⟨⟨successful, failed⟩, _, completed⟩ := bind_eq_ok.mp completed
  obtain ⟨stored, storeOk, completed⟩ := bind_eq_ok.mp completed
  obtain ⟨dropped, dropOk, completed⟩ := bind_eq_ok.mp completed
  have same := same_trail_trans (complete_write_same storeOk) (complete_write_same dropOk)
  have filled : SameTrail dropped ((dropped.forgetPromotionFailures successful).fillLedger
      (TieringOffloadingManager.reservationsOf job successful)) := ⟨rfl, rfl, rfl, rfl, rfl, rfl⟩
  dsimp only at completed
  split at completed
  · cases completed
    exact same_trail_trans same filled
  · cases completed
    exact same_trail_trans (same_trail_trans same filled) (suppress_same _ failed).1

theorem consume_result_polled {tierIdx : Nat} {result : JobResult}
    (consumed : manager.consumeResult tierIdx result = .ok after) : Polled manager after := by
  unfold TieringOffloadingManager.consumeResult at consumed
  split at consumed
  · cases consumed
    refine ⟨rfl, fun _ running => running, fun _ _ found => found, ?_, ?_⟩
    · exact fun jobId member => .inl (Finset.mem_of_mem_erase member)
    · intro jobId deadline found
      have found : (manager.drainedRetractedJobIds.erase result.jobId).get? jobId =
        some deadline := found
      rw [OrderedMap.get_erase] at found
      split at found
      · cases found
      · exact found
  · split at consumed
    · cases consumed
    · rename_i job _
      have popped := pop_polled manager result.jobId
      obtain ⟨_, _, consumed⟩ := bind_eq_ok.mp consumed
      split at consumed
      · exact popped.trans (polled_of_same (complete_promotion_same consumed))
      · obtain ⟨primary, _, done⟩ := bind_eq_ok.mp consumed
        cases done
        exact popped.trans (polled_of_same ⟨rfl, rfl, rfl, rfl, rfl, rfl⟩)

theorem consume_results_polled (results : List JobResult) {tierIdx : Nat}
    {manager : TieringOffloadingManager P}
    (consumed : manager.consumeResults tierIdx results = .ok after) : Polled manager after := by
  induction results generalizing manager with
  | nil =>
      cases consumed
      exact polled_of_same (same_refl _)
  | cons result rest ih =>
      obtain ⟨middle, first, consumed⟩ := bind_eq_ok.mp consumed
      exact (consume_result_polled first).trans (ih consumed)

theorem poll_tiers_polled (tiers : List Nat) {manager : TieringOffloadingManager P}
    (polled : manager.pollTiers tiers = .ok after) : Polled manager after := by
  induction tiers generalizing manager with
  | nil =>
      cases polled
      exact polled_of_same (same_refl _)
  | cons tierIdx rest ih =>
      obtain ⟨middle, first, polled⟩ := bind_eq_ok.mp polled
      have asked : Polled manager manager.next := polled_of_same ⟨rfl, rfl, rfl, rfl, rfl, rfl⟩
      exact (asked.trans (consume_results_polled _ first)).trans (ih polled)

theorem retract_promotion_polled {jobId : JobId}
    (running : manager.jobs.contains jobId = true)
    (retracted : manager.retractPromotion jobId = .ok after) :
    Polled manager after ∧ after.jobs = manager.jobs.erase jobId := by
  have marked : Polled manager ((manager.popJob jobId).addRetracted jobId) := by
    refine ⟨rfl, (pop_polled manager jobId).jobs, fun _ _ found => found, ?_,
      fun _ _ found => found⟩
    intro otherId member
    rcases Finset.mem_insert.mp member with rfl | before
    · exact .inr (.inl running)
    · exact .inl before
  unfold TieringOffloadingManager.retractPromotion at retracted
  dsimp only at retracted
  split at retracted
  · cases retracted
    exact ⟨marked, rfl⟩
  · rename_i job _
    obtain ⟨written, writeOk, done⟩ := bind_eq_ok.mp retracted
    cases done
    have same := same_trail_trans (complete_write_same writeOk)
      (suppress_same written job.transferJob.keys).1
    exact ⟨marked.trans (polled_of_same same), same.jobs⟩

theorem retract_promotions_polled (jobIds : List JobId) {manager : TieringOffloadingManager P}
    (distinct : jobIds.Nodup) (running : ∀ jobId ∈ jobIds, manager.jobs.contains jobId = true)
    (retracted : manager.retractPromotions jobIds = .ok after) : Polled manager after := by
  induction jobIds generalizing manager with
  | nil =>
      cases retracted
      exact polled_of_same (same_refl _)
  | cons jobId rest ih =>
      obtain ⟨fresh, distinct⟩ := List.nodup_cons.mp distinct
      obtain ⟨middle, first, retracted⟩ := bind_eq_ok.mp retracted
      obtain ⟨polled, jobs⟩ := retract_promotion_polled (running jobId List.mem_cons_self) first
      apply polled.trans (ih distinct _ retracted)
      intro otherId member
      have different : otherId ≠ jobId := fun same => fresh (same ▸ member)
      rw [jobs, contains_erase, decide_eq_true different]
      exact running otherId (List.mem_cons_of_mem _ member)

theorem expire_promotions_polled
    (expired : manager.expireStalePromotions = .ok after) : Polled manager after := by
  unfold TieringOffloadingManager.expireStalePromotions at expired
  split at expired
  · cases expired
    exact polled_of_same (same_refl _)
  · have asked : Polled manager manager.next := polled_of_same ⟨rfl, rfl, rfl, rfl, rfl, rfl⟩
    apply asked.trans (retract_promotions_polled _ _ _ expired)
    · exact manager.jobs.keys_nodup.sublist (List.filter_sublist.map Prod.fst)
    · intro jobId member
      obtain ⟨entry, entryMember, rfl⟩ := List.mem_map.mp member
      exact Option.isSome_iff_exists.mpr ⟨entry.2,
        (manager.jobs.get_eq_some_iff entry.1 entry.2).mpr (List.mem_of_mem_filter entryMember)⟩

/-- Batches of pending stores are marked, and nothing else of the ids is touched. -/
structure BatchesMarked (batches : List JobId) (manager after : TieringOffloadingManager P) :
    Prop where
  counter : after.jobIdCounter = manager.jobIdCounter
  jobs : after.jobs = manager.jobs
  owners : after.storePendingOwner = manager.storePendingOwner
  retracted : ∀ jobId ∈ after.retractedJobIds, jobId ∈ manager.retractedJobIds ∨ jobId ∈ batches
  drained : after.drainedRetractedJobIds = manager.drainedRetractedJobIds

theorem retract_store_pends_marked (groups : List (JobId × List OffloadKey))
    {manager : TieringOffloadingManager P}
    (retracted : manager.retractStorePends groups = .ok after) :
    BatchesMarked (groups.map Prod.fst) manager after := by
  induction groups generalizing manager with
  | nil =>
      cases retracted
      exact ⟨rfl, rfl, rfl, fun _ member => .inl member, rfl⟩
  | cons group rest ih =>
      obtain ⟨written, writeOk, retracted⟩ := bind_eq_ok.mp retracted
      have same := complete_write_same writeOk
      have later := ih retracted
      refine ⟨later.counter.trans same.counter, later.jobs.trans same.jobs,
        later.owners.trans same.owners, ?_, later.drained.trans same.drained⟩
      intro jobId member
      rcases later.retracted jobId member with before | batch
      · have before : jobId ∈ written.retractedJobIds := before
        rw [same.retracted] at before
        rcases Finset.mem_insert.mp before with rfl | before
        · exact .inr List.mem_cons_self
        · exact .inl before
      · exact .inr (List.mem_cons_of_mem _ batch)

theorem expire_store_pends_polled
    (expired : manager.expireStaleStorePends = .ok after) : Polled manager after := by
  unfold TieringOffloadingManager.expireStaleStorePends at expired
  split at expired
  · cases expired
    exact polled_of_same (same_refl _)
  · simp only at expired
    generalize manager.expiredStorePends manager.answer.now = keys at expired
    obtain ⟨deadlines, owners, groups, disarmed, fewer, batches⟩ :=
      disarm_all_batches keys manager.next OrderedMap.empty
    rw [disarmed] at expired
    have marked := retract_store_pends_marked _ expired
    refine ⟨marked.counter, ?_, ?_, ?_, ?_⟩
    · intro jobId running
      rwa [marked.jobs] at running
    · intro key owner found
      rw [marked.owners] at found
      exact fewer key owner found
    · intro jobId member
      rcases marked.retracted jobId member with before | batch
      · exact .inl before
      · obtain ⟨group, listed, rfl⟩ := List.mem_map.mp batch
        have found := (groups.get_eq_some_iff group.1 group.2).mpr listed
        rcases batches group.1 (Option.isSome_iff_exists.mpr ⟨group.2, found⟩) with
          empty | ⟨key, owner, held, same⟩
        · simp [OrderedMap.contains] at empty
        · exact .inr (.inr ⟨key, owner, held, same⟩)
    · intro jobId deadline found
      rwa [marked.drained] at found

theorem process_polled (processed : manager.processFinishedJobs = .ok after) :
    Polled manager after := by
  obtain ⟨tiers, tiersOk, processed⟩ := bind_eq_ok.mp processed
  obtain ⟨promotions, promotionsOk, processed⟩ := bind_eq_ok.mp processed
  exact ((poll_tiers_polled _ tiersOk).trans (expire_promotions_polled promotionsOk)).trans
    (expire_store_pends_polled processed)

theorem maybe_process_polled (processed : manager.maybeProcessFinishedJobs = .ok after) :
    Polled manager after := by
  unfold TieringOffloadingManager.maybeProcessFinishedJobs at processed
  split at processed
  · cases processed
    exact polled_of_same (same_refl _)
  · have closing : Polled manager (manager.setProcessed true) := by
      refine ⟨rfl, fun _ running => running, fun _ _ found => found, fun _ member => .inl member,
        fun _ _ found => found⟩
    exact closing.trans (process_polled processed)

/-- A step without a drain: a poll at most, then new jobs under new ids. -/
structure Stepped (manager after : TieringOffloadingManager P) : Prop where
  counter : manager.jobIdCounter ≤ after.jobIdCounter
  jobs : ∀ jobId, after.jobs.contains jobId = true →
    manager.jobs.contains jobId = true ∨ manager.jobIdCounter ≤ jobId
  retracted : ∀ jobId ∈ after.retractedJobIds, jobId ∈ manager.retractedJobIds ∨
    manager.jobs.contains jobId = true ∨
      ∃ key owner, manager.storePendingOwner.get? key = some owner ∧ owner.2 = jobId
  drained : ∀ jobId deadline, after.drainedRetractedJobIds.get? jobId = some deadline →
    manager.drainedRetractedJobIds.get? jobId = some deadline

omit [CachePolicy P] in
theorem stepped_of_polled (polled : Polled manager after) : Stepped manager after :=
  ⟨polled.counter.ge, fun jobId running => .inl (polled.jobs jobId running), polled.retracted,
    polled.drained⟩

theorem polled_then (polled : Polled manager middle) (advanced : Advanced middle after) :
    Stepped manager after where
  counter := polled.counter.ge.trans advanced.counter
  jobs jobId running := by
    by_cases old : jobId < middle.jobIdCounter
    · have same := advanced.jobs jobId old
      rw [OrderedMap.contains, same] at running
      exact .inl (polled.jobs jobId running)
    · rw [polled.counter] at old
      exact .inr (not_lt.mp old)
  retracted jobId member := polled.retracted jobId (advanced.retracted ▸ member)
  drained jobId deadline found := polled.drained jobId deadline (advanced.drained ▸ found)

theorem reset_cache_stepped (reset : manager.resetCache = .ok after) : Stepped manager after := by
  obtain ⟨polled, pollOk, reset⟩ := bind_eq_ok.mp reset
  obtain ⟨_, _, done⟩ := bind_eq_ok.mp reset
  have called := polled_of_same (call_all_same manager .drainJobs).1
  have processed := called.trans (process_polled pollOk)
  generalize cleared_eq : ({ polled.withStorePends OrderedMap.empty OrderedMap.empty with
    pendingLoadSubmissions := OrderedMap.empty } : TieringOffloadingManager P) = cleared at done
  have same := reset_requests_same cleared
  cases done
  apply stepped_of_polled
  have jobs : cleared.resetRequests.jobs = polled.jobs := same.jobs.trans (by rw [← cleared_eq]; rfl)
  have retracted : cleared.resetRequests.retractedJobIds = polled.retractedJobIds :=
    same.retracted.trans (by rw [← cleared_eq]; rfl)
  have drained : cleared.resetRequests.drainedRetractedJobIds = polled.drainedRetractedJobIds :=
    same.drained.trans (by rw [← cleared_eq]; rfl)
  have owners : cleared.resetRequests.storePendingOwner = OrderedMap.empty :=
    same.owners.trans (by rw [← cleared_eq]; rfl)
  refine ⟨?_, ?_, ?_, ?_, ?_⟩
  · exact (same.counter.trans (by rw [← cleared_eq]; rfl)).trans processed.counter
  · intro jobId running
    exact processed.jobs jobId (jobs ▸ running)
  · intro key owner found
    have found : cleared.resetRequests.storePendingOwner.get? key = some owner := found
    rw [owners] at found
    simp at found
  · intro jobId member
    exact processed.retracted jobId (retracted ▸ member)
  · intro jobId deadline found
    exact processed.drained jobId deadline (drained ▸ found)

/-- Every event but a drain. -/
theorem apply_stepped [LawfulCachePolicy P] [TrackedPolicy P] {state after : ReportRun P} {event : TieringEvent}
    (inv : ReportInv state) (permitted : ReportRun.Permitted state event)
    (applied : state.apply event = .ok after) (draining : event ≠ .drainFlushJobIds) :
    Stepped state.run.manager after.run.manager := by
  obtain ⟨run, ran, done⟩ := bind_eq_ok.mp applied
  cases done
  obtain ⟨honest, allowed⟩ := permitted
  have same := polled_of_same (same_refl state.run.manager)
  cases event with
  | newRequest reqContext =>
      cases ran
      exact polled_then same ((new_request_quiet _ reqContext none).books inv.booked).2
  | lookup key reqContext =>
      obtain ⟨⟨result, manager⟩, looked, ran⟩ := bind_eq_ok.mp ran
      cases ran
      obtain ⟨polled, pollOk, quiet⟩ := lookup_quiet looked
      have polledInv := (maybe_process_trail inv honest pollOk).2
      exact polled_then (maybe_process_polled pollOk) (quiet.books polledInv.booked).2
  | prepareStore keys reqContext =>
      obtain ⟨⟨output, manager⟩, prepared, ran⟩ := bind_eq_ok.mp ran
      obtain ⟨polled, pollOk, quiet⟩ := prepare_store_quiet prepared
      have polledInv := (maybe_process_trail inv honest pollOk).2
      have stepped := polled_then (maybe_process_polled pollOk) (quiet.books polledInv.booked).2
      cases output with
      | none =>
          cases ran
          exact stepped
      | some output =>
          cases ran
          dsimp only
          rw [accept_manager]
          exact stepped
  | completeStore index success =>
      cases found : state.run.stores[index]? with
      | none =>
          simp only [TieringRun.apply, found] at ran
          cases ran
          exact stepped_of_polled same
      | some job =>
          simp only [TieringRun.apply, found] at ran
          obtain ⟨manager, completed, ran⟩ := bind_eq_ok.mp ran
          cases ran
          have told : Quiet state.run.manager (state.run.reported job success) := by
            unfold TieringRun.reported
            split
            · exact quiet_of_same ⟨rfl, rfl, rfl, rfl, rfl, rfl⟩ rfl
            · exact quiet_refl _
          exact polled_then same
            ((quiet_trans told (complete_store_quiet completed)).books inv.booked).2
  | prepareLoad keys =>
      obtain ⟨⟨blockIds, manager⟩, loaded, ran⟩ := bind_eq_ok.mp ran
      cases ran
      obtain ⟨⟨ids, primary⟩, _, done⟩ := bind_eq_ok.mp loaded
      cases done
      exact stepped_of_polled (polled_of_same ⟨rfl, rfl, rfl, rfl, rfl, rfl⟩)
  | completeLoad keys =>
      obtain ⟨manager, completed, ran⟩ := bind_eq_ok.mp ran
      cases ran
      obtain ⟨primary, _, done⟩ := bind_eq_ok.mp completed
      cases done
      exact stepped_of_polled (polled_of_same ⟨rfl, rfl, rfl, rfl, rfl, rfl⟩)
  | touch keys =>
      cases ran
      have touched : SameTrail state.run.manager
          (state.run.manager.withPrimary (state.run.manager.primaryTier.touch keys)) :=
        ⟨rfl, rfl, rfl, rfl, rfl, rfl⟩
      exact stepped_of_polled (polled_of_same
        (same_trail_trans touched (call_all_same _ (.touch keys)).1))
  | requestFinished reqContext =>
      obtain ⟨manager, finished, ran⟩ := bind_eq_ok.mp ran
      cases ran
      exact polled_then same ((request_finished_quiet finished).books inv.booked).2
  | scheduleEnd context =>
      obtain ⟨manager, ended, ran⟩ := bind_eq_ok.mp ran
      cases ran
      obtain ⟨polled, pollOk, quiet⟩ := schedule_end_quiet ended
      obtain ⟨closed, polledInv⟩ := maybe_process_trail inv honest pollOk
      exact polled_then (maybe_process_polled pollOk) (quiet closed polledInv.booked).2
  | drainFlushJobIds => exact absurd rfl draining
  | resetCache =>
      obtain ⟨manager, reset, ran⟩ := bind_eq_ok.mp ran
      cases ran
      exact reset_cache_stepped reset

end Polls

section Drains

theorem get_set_all {κ ν : Type} [DecidableEq κ] (keys : List κ) (value : ν)
    (map : OrderedMap κ ν) (key : κ) :
    (keys.foldl (fun map key => map.set key value) map).get? key =
      if key ∈ keys then some value else map.get? key := by
  induction keys generalizing map with
  | nil => rfl
  | cons first rest ih =>
      rw [List.foldl_cons, ih, OrderedMap.get_set]
      by_cases later : key ∈ rest
      · simp [later]
      · simp [later]

theorem get_erase_all {κ ν : Type} [DecidableEq κ] (keys : List κ) (map : OrderedMap κ ν)
    (key : κ) :
    (keys.foldl (fun map key => map.erase key) map).get? key =
      if key ∈ keys then none else map.get? key := by
  induction keys generalizing map with
  | nil => rfl
  | cons first rest ih =>
      rw [List.foldl_cons, ih, OrderedMap.get_erase]
      by_cases later : key ∈ rest
      · simp [later]
      · simp [later]

/-- What a drain keeps of an id, before it prunes. -/
def retainedAt (manager : TieringOffloadingManager P) (jobId : JobId) : Option Rat :=
  if jobId ∈ manager.retractedJobIds then some (manager.answer.now + 600)
  else manager.drainedRetractedJobIds.get? jobId

theorem drained_get (manager : TieringOffloadingManager P) (jobId : JobId) :
    manager.drainFlushJobIds.2.drainedRetractedJobIds.get? jobId =
      (retainedAt manager jobId).filter fun deadline => ¬deadline < manager.next.answer.now := by
  unfold TieringOffloadingManager.drainFlushJobIds
  dsimp only
  generalize retained_eq : (if manager.retractedJobIds = ∅ then manager.drainedRetractedJobIds
    else (manager.retractedJobIds.sort (· ≤ ·)).foldl
      (fun drained jobId => drained.set jobId (manager.answer.now + 600))
      manager.drainedRetractedJobIds) = retained
  have kept : retained.get? jobId = retainedAt manager jobId := by
    rw [← retained_eq, retainedAt]
    split
    · rename_i none
      simp [none]
    · rw [get_set_all]
      simp only [Finset.mem_sort]
  rw [get_erase_all, ← kept]
  cases found : retained.get? jobId with
  | none => simp
  | some deadline =>
      have listed : jobId ∈ (retained.entries.filter fun entry =>
          entry.2 < manager.next.answer.now).map Prod.fst ↔ deadline < manager.next.answer.now := by
        constructor
        · intro member
          obtain ⟨entry, entryMember, rfl⟩ := List.mem_map.mp member
          obtain ⟨inRetained, early⟩ := List.mem_filter.mp entryMember
          rw [(retained.get_eq_some_iff entry.1 entry.2).mpr inRetained] at found
          cases found
          exact of_decide_eq_true early
        · intro early
          exact List.mem_map.mpr ⟨(jobId, deadline), List.mem_filter.mpr
            ⟨(retained.get_eq_some_iff jobId deadline).mp found, decide_eq_true early⟩, rfl⟩
      by_cases early : deadline < manager.next.answer.now
      · rw [if_pos (listed.mpr early), Option.filter_some, if_neg (by simpa using early)]
      · rw [if_neg (mt listed.mp early), Option.filter_some, if_pos (decide_eq_true early)]

variable [CachePolicy P] [LawfulCachePolicy P] [TrackedPolicy P]

/-- Where the ids of given jobs stand with the drains. -/
structure DrainInv (timed : TimedRun P) : Prop where
  handed : ∀ drain ∈ timed.drains, ∀ jobId ∈ drain.jobIds,
    jobId < timed.state.run.manager.jobIdCounter
  fresh : ∀ jobId tierIdx, timed.state.trail.given.get? jobId = some tierIdx →
    (timed.state.run.manager.jobs.contains jobId = true ∨
      jobId ∈ timed.state.run.manager.retractedJobIds) →
    ∀ drain ∈ timed.drains, jobId ∉ drain.jobIds
  kept : ∀ jobId tierIdx, timed.state.trail.given.get? jobId = some tierIdx → ∀ deadline,
    timed.state.run.manager.drainedRetractedJobIds.get? jobId = some deadline →
    ¬Overdue jobId timed.drains ∧ (∃ drain ∈ timed.drains, jobId ∈ drain.jobIds) ∧
      ∀ drain ∈ timed.drains, jobId ∈ drain.jobIds → drain.handedAt + 600 = deadline
  dropped : ∀ jobId tierIdx, timed.state.trail.given.get? jobId = some tierIdx →
    jobId ∈ timed.state.trail.dropped → Overdue jobId timed.drains

variable {trail : Trail} {loads : OffloadKey → Nat} {manager after : TieringOffloadingManager P}

theorem tolerated_below (inv : TrailInv trail loads manager) {jobId : JobId}
    (late : tolerates manager jobId = true) : jobId < manager.jobIdCounter := by
  by_contra new
  have unborn := inv.unborn jobId (not_lt.mp new)
  rw [Trail.places, late, Bool.toNat_true] at unborn
  omega

theorem dropped_below (inv : TrailInv trail loads manager) {jobId : JobId}
    (dropped : jobId ∈ trail.dropped) : jobId < manager.jobIdCounter := by
  by_contra new
  have unborn := inv.unborn jobId (not_lt.mp new)
  rw [Trail.places, decide_eq_true dropped, Bool.toNat_true] at unborn
  omega

theorem running_not_tolerated (inv : TrailInv trail loads manager) {jobId : JobId} {tierIdx : Nat}
    (given : trail.given.get? jobId = some tierIdx)
    (running : manager.jobs.contains jobId = true) : tolerates manager jobId = false := by
  have placed := inv.placed jobId tierIdx given
  rw [Trail.places, running, Bool.toNat_true] at placed
  exact Bool.toNat_eq_zero.mp (by omega)

/-- A job is given where it was given before, or its id is new. -/
theorem given_before (inv : TrailInv trail loads manager) (stepped : Stepped manager after)
    {noted : Trail} (sameGiven : noted.given = trail.given) {jobId : JobId} {tierIdx : Nat}
    (given : (Trail.give noted after.jobs).given.get? jobId = some tierIdx) :
    (∃ earlier, trail.given.get? jobId = some earlier) ∨ manager.jobIdCounter ≤ jobId := by
  rw [give_get, sameGiven] at given
  cases running : after.jobs.get? jobId with
  | none =>
      rw [running, Option.map_none, Option.none_or] at given
      exact .inl ⟨tierIdx, given⟩
  | some job =>
      have contained : after.jobs.contains jobId = true := by
        rw [OrderedMap.contains, running]
        rfl
      rcases stepped.jobs jobId contained with before | new
      · obtain ⟨earlier, found⟩ := Option.isSome_iff_exists.mp before
        exact .inl ⟨_, inv.jobs jobId earlier found⟩
      · exact .inr new

theorem stepped_drain_inv {state : ReportRun P} {drains : List Drain}
    (books : ReportInv state) (inv : DrainInv ⟨state, drains⟩) {next : ReportRun P}
    (stepped : Stepped state.run.manager next.run.manager) {noted : Trail}
    (trailNext : next.trail = Trail.give noted next.run.manager.jobs)
    (sameGiven : noted.given = state.trail.given)
    (sameDropped : noted.dropped = state.trail.dropped) : DrainInv ⟨next, drains⟩ := by
  have before : ∀ jobId tierIdx, next.trail.given.get? jobId = some tierIdx →
      (∃ earlier, state.trail.given.get? jobId = some earlier) ∨
        state.run.manager.jobIdCounter ≤ jobId := by
    intro jobId tierIdx given
    rw [trailNext] at given
    exact given_before books stepped sameGiven given
  constructor
  · intro drain member jobId handed
    exact (inv.handed drain member jobId handed).trans_le stepped.counter
  · intro jobId tierIdx given alive drain member handed
    have old := inv.handed drain member jobId handed
    obtain ⟨earlier, found⟩ := (before jobId tierIdx given).resolve_right (not_le.mpr old)
    apply inv.fresh jobId earlier found _ drain member handed
    rcases alive with running | retracted
    · exact .inl ((stepped.jobs jobId running).resolve_right (not_le.mpr old))
    · rcases stepped.retracted jobId retracted with held | running | ⟨key, owner, owned, rfl⟩
      · exact .inr held
      · exact .inl running
      · rw [books.owners key owner owned] at found
        cases found
  · intro jobId tierIdx given deadline found
    have found := stepped.drained jobId deadline found
    have late : tolerates state.run.manager jobId = true :=
      (tolerates_iff _ _).mpr (.inr (Option.isSome_iff_exists.mpr ⟨deadline, found⟩))
    obtain ⟨earlier, given⟩ := (before jobId tierIdx given).resolve_right
      (not_le.mpr (tolerated_below books late))
    exact inv.kept jobId earlier given deadline found
  · intro jobId tierIdx given dropped
    have dropped : jobId ∈ state.trail.dropped := by
      rw [trailNext] at dropped
      exact sameDropped ▸ dropped
    obtain ⟨earlier, given⟩ := (before jobId tierIdx given).resolve_right
      (not_le.mpr (dropped_below books dropped))
    exact inv.dropped jobId earlier given dropped

theorem drained_drain_inv {state : ReportRun P} {drains : List Drain}
    (books : ReportInv state) (inv : DrainInv ⟨state, drains⟩) {next : ReportRun P}
    (managerNext : next.run.manager = state.run.manager.drainFlushJobIds.2)
    (trailNext : next.trail = Trail.give
      (Trail.forget state.trail state.run.manager next.run.manager) next.run.manager.jobs) :
    DrainInv ⟨next, drainOf state.run.manager :: drains⟩ := by
  have jobs : next.run.manager.jobs = state.run.manager.jobs := by rw [managerNext]; rfl
  have before : ∀ jobId tierIdx, next.trail.given.get? jobId = some tierIdx →
      ∃ earlier, state.trail.given.get? jobId = some earlier := by
    intro jobId tierIdx given
    rw [trailNext, give_get, jobs] at given
    cases running : state.run.manager.jobs.get? jobId with
    | none =>
        rw [running, Option.map_none, Option.none_or] at given
        exact ⟨tierIdx, given⟩
    | some job => exact ⟨_, books.jobs jobId job running⟩
  have drained : ∀ jobId, next.run.manager.drainedRetractedJobIds.get? jobId =
      (retainedAt state.run.manager jobId).filter
        fun deadline => ¬deadline < state.run.manager.next.answer.now := by
    intro jobId
    rw [managerNext]
    exact drained_get _ jobId
  have tolerated : ∀ jobId ∈ state.run.manager.retractedJobIds,
      tolerates state.run.manager jobId = true :=
    fun jobId member => (tolerates_iff _ _).mpr (.inl member)
  -- what is retained of a given id, with the drains that handed it out
  have retained : ∀ jobId tierIdx, state.trail.given.get? jobId = some tierIdx → ∀ deadline,
      retainedAt state.run.manager jobId = some deadline →
      ¬Overdue jobId drains ∧
        (∃ drain ∈ drainOf state.run.manager :: drains, jobId ∈ drain.jobIds) ∧
        ∀ drain ∈ drainOf state.run.manager :: drains, jobId ∈ drain.jobIds →
          drain.handedAt + 600 = deadline := by
    intro jobId tierIdx given deadline found
    unfold retainedAt at found
    split at found
    · rename_i retracted
      cases found
      have apart := inv.fresh jobId tierIdx given (.inr retracted)
      refine ⟨fun overdue => ?_, ⟨_, List.mem_cons_self, retracted⟩, ?_⟩
      · obtain ⟨drain, member, handed⟩ := overdue_handed overdue
        exact apart drain member handed
      · intro drain member handed
        rcases List.mem_cons.mp member with rfl | old
        · rfl
        · exact absurd handed (apart drain old)
    · rename_i settled
      obtain ⟨early, ⟨drain, member, handed⟩, times⟩ := inv.kept jobId tierIdx given deadline found
      refine ⟨early, ⟨drain, List.mem_cons_of_mem _ member, handed⟩, ?_⟩
      intro drain member handed
      rcases List.mem_cons.mp member with rfl | old
      · exact absurd handed settled
      · exact times drain old handed
  constructor
  · intro drain member jobId handed
    have counter : next.run.manager.jobIdCounter = state.run.manager.jobIdCounter := by
      rw [managerNext]
      rfl
    show jobId < next.run.manager.jobIdCounter
    rw [counter]
    rcases List.mem_cons.mp member with rfl | old
    · exact tolerated_below books (tolerated jobId handed)
    · exact inv.handed drain old jobId handed
  · intro jobId tierIdx given alive drain member handed
    obtain ⟨earlier, found⟩ := before jobId tierIdx given
    rcases alive with running | retracted
    · have running : state.run.manager.jobs.contains jobId = true := jobs ▸ running
      rcases List.mem_cons.mp member with rfl | old
      · have apart := running_not_tolerated books found running
        rw [tolerated jobId handed] at apart
        cases apart
      · exact inv.fresh jobId earlier found (.inl running) drain old handed
    · have none : next.run.manager.retractedJobIds = ∅ := by rw [managerNext]; rfl
      have retracted : jobId ∈ next.run.manager.retractedJobIds := retracted
      rw [none] at retracted
      exact absurd retracted (Finset.notMem_empty jobId)
  · intro jobId tierIdx given deadline found
    obtain ⟨earlier, given⟩ := before jobId tierIdx given
    have found : next.run.manager.drainedRetractedJobIds.get? jobId = some deadline := found
    rw [drained, Option.filter_eq_some_iff] at found
    obtain ⟨early, handed, times⟩ := retained jobId earlier given deadline found.1
    refine ⟨?_, handed, times⟩
    rintro (⟨drain, member, inDrain, late⟩ | overdue)
    · rw [times drain member inDrain] at late
      exact absurd late (of_decide_eq_true found.2)
    · exact early overdue
  · intro jobId tierIdx given dropped
    obtain ⟨earlier, given⟩ := before jobId tierIdx given
    have dropped : jobId ∈ next.trail.dropped := dropped
    rw [trailNext] at dropped
    rcases Finset.mem_union.mp dropped with old | forgotten
    · exact .inr (inv.dropped jobId earlier given old)
    · obtain ⟨known, lost⟩ := Finset.mem_filter.mp forgotten
      obtain ⟨deadline, isRetained⟩ : ∃ deadline,
          retainedAt state.run.manager jobId = some deadline := by
        unfold retainedAt
        split
        · exact ⟨_, rfl⟩
        · rename_i settled
          have drainedBefore := (Finset.mem_union.mp known).resolve_left settled
          rw [List.mem_toFinset, OrderedMap.mem_keys_iff] at drainedBefore
          exact Option.isSome_iff_exists.mp drainedBefore
      obtain ⟨_, ⟨drain, member, handed⟩, times⟩ :=
        retained jobId earlier given deadline isRetained
      refine .inl ⟨drain, member, handed, ?_⟩
      rw [times drain member handed]
      by_contra kept
      have kept : ¬deadline < state.run.manager.next.answer.now := kept
      have still := drained jobId
      rw [isRetained, Option.filter_some, if_pos (decide_eq_true kept)] at still
      have late := (tolerates_iff next.run.manager jobId).mpr
        (.inr (Option.isSome_iff_exists.mpr ⟨deadline, still⟩))
      rw [late] at lost
      cases lost

theorem apply_drain_inv {timed after : TimedRun P} {event : TieringEvent}
    (books : ReportInv timed.state) (inv : DrainInv timed) (permitted : timed.Permitted event)
    (applied : timed.apply event = .ok after) : DrainInv after := by
  obtain ⟨state, ran, done⟩ := bind_eq_ok.mp applied
  cases done
  obtain ⟨run, _, made⟩ := bind_eq_ok.mp ran
  by_cases draining : event = .drainFlushJobIds
  · subst draining
    cases ran
    exact drained_drain_inv books inv rfl rfl
  · have stepped := apply_stepped books permitted ran draining
    cases made
    have same : timed.drainsAfter event = timed.drains := by
      cases event with
      | drainFlushJobIds => exact absurd rfl draining
      | _ => rfl
    rw [same]
    have notes : ∃ noted : Trail, noted.given = timed.state.trail.given ∧
        noted.dropped = timed.state.trail.dropped ∧
        timed.state.trailAfter event run.manager = Trail.give noted run.manager.jobs := by
      refine ⟨timed.state.noted event, ?_, ?_, ?_⟩
      · unfold ReportRun.noted
        split
        · rfl
        · exact (note_all_frame _ _).1
      · unfold ReportRun.noted
        split
        · rfl
        · exact (note_all_frame _ _).2
      · cases event with
        | drainFlushJobIds => exact absurd rfl draining
        | _ => rfl
    obtain ⟨noted, given, dropped, trailNext⟩ := notes
    exact stepped_drain_inv books inv stepped trailNext given dropped

theorem reached_drain_inv {policy : P} (tracked : TrackedPolicy.Tracked policy)
    (empty : ∀ key, CachePolicy.get policy key = none) {primaryParams : CpuManagerParams}
    {params : TieringParams} {tiers : List TierInfo} {answers : Nat → TierAnswer}
    {timed : TimedRun P} (reaches : TimedReaches policy primaryParams params tiers answers timed) :
    ReportInv timed.state ∧ DrainInv timed := by
  apply @EventRuns.reaches_invariant _ _ _ _ _
    (fun timed : TimedRun P => ReportInv timed.state ∧ DrainInv timed) _ _ ?_ ?_ reaches
  · intro before event after inv permitted applied
    refine ⟨?_, apply_drain_inv inv.1 inv.2 permitted applied⟩
    obtain ⟨state, ran, done⟩ := bind_eq_ok.mp applied
    cases done
    exact apply_report_inv inv.1 permitted ran
  · refine ⟨start_report_inv tracked empty primaryParams params tiers answers, ?_, ?_, ?_, ?_⟩
    · exact fun drain member => by cases member
    · exact fun jobId tierIdx given => by cases given
    · exact fun jobId tierIdx given => by cases given
    · exact fun jobId tierIdx given => by cases given

end Drains

section Polling

variable [CachePolicy P]

/-- The job is not overdue, and a partial report of a running promotion only names keys of
the promotion. -/
def Timely (timed : TimedRun P) (result : JobResult) : Prop :=
  ¬Overdue result.jobId timed.drains ∧
    ∀ job ∈ timed.state.run.manager.jobs.get? result.jobId,
      job.transferJob.isPromotion = true → result.success = false →
        ∀ key ∈ result.successfulKeys, key ∈ job.transferJob.keys

/-- Every poll of a run returns exactly when its reports are timely, and the report of a
job that was retracted leaves the primary tier alone. -/
def PollsExact (policy : P) : Prop :=
  ∀ primaryParams params tiers answers timed event polling,
    TimedReaches policy primaryParams params tiers answers timed →
    pollOf timed.state.run.manager event = some polling →
    timed.state.trail.Honest (reportsOf polling) →
    ((∃ after, polling.processFinishedJobs = .ok after) ↔
      ∀ report ∈ reportsOf polling, Timely timed report.result) ∧
    ∀ report ∈ reportsOf polling, timed.state.Retracted report.jobId → ∀ after,
      report.manager.consumeResult report.tierIdx report.result = .ok after →
        after.primaryTier = report.manager.primaryTier

variable [LawfulCachePolicy P] [TrackedPolicy P]

/-- Of the jobs that were given and not reported, drains have forgotten the overdue ones. -/
theorem dropped_iff_overdue {timed : TimedRun P} (books : ReportInv timed.state)
    (inv : DrainInv timed) {jobId : JobId} {tierIdx : Nat}
    (given : timed.state.trail.given.get? jobId = some tierIdx)
    (unreported : ¬timed.state.trail.Reported jobId) :
    jobId ∈ timed.state.trail.dropped ↔ Overdue jobId timed.drains := by
  constructor
  · exact inv.dropped jobId tierIdx given
  · intro overdue
    by_contra kept
    obtain ⟨drain, member, handed⟩ := overdue_handed overdue
    rcases open_somewhere books given unreported kept with running | late
    · exact inv.fresh jobId tierIdx given (.inl running) drain member handed
    · rcases (tolerates_iff _ _).mp late with retracted | drained
      · exact inv.fresh jobId tierIdx given (.inr retracted) drain member handed
      · obtain ⟨deadline, found⟩ := Option.isSome_iff_exists.mp drained
        exact (inv.kept jobId tierIdx given deadline found).1 overdue

theorem polls_exact_of_lawful {policy : P} (tracked : TrackedPolicy.Tracked policy)
    (empty : ∀ key, CachePolicy.get policy key = none) : PollsExact policy := by
  intro primaryParams params tiers answers timed event polling reaches polls honest
  obtain ⟨inv, drains⟩ := reached_drain_inv tracked empty reaches
  obtain ⟨pollingInv, jobs⟩ := poll_of_trail inv polls
  constructor
  · refine (process_exact pollingInv honest).1.trans ?_
    refine forall₂_congr fun report member => ?_
    obtain ⟨given, unreported⟩ := honest.2 report member
    unfold Trail.Accepts Timely
    rw [jobs]
    exact and_congr (not_congr (dropped_iff_overdue inv drains given unreported)) Iff.rfl
  · intro report member retracted after consumed
    have stopped := retracted_stopped inv (honest.2 report member).1 retracted
    refine consume_stopped ?_ consumed
    exact (poll_reports_turn _ pollingInv honest report member).jobs.trans (jobs ▸ stopped)

end Polling

/-- The slow tier, with a report of job 0 after the second of two drains. -/
def tardyTier (drainedAt : Rat) (index : Nat) : TierAnswer :=
  { slowTier 15 index with
    now := if index < 7 then 0 else if index < 14 then 100 else drainedAt }

def tardyStart (drainedAt : Rat) : TimedRun LruPolicy.LRUCachePolicy :=
  TimedRun.start (LruPolicy.LRUCachePolicy.new 2) { numBlocks := 2 } {} [{}] (tardyTier drainedAt)

/-- Job 0 is retracted at time 100. -/
def retractedRun (drainedAt : Rat) : TimedRun LruPolicy.LRUCachePolicy :=
  (EventRuns.replay TimedRun.apply TimedRun.Permitted (tardyStart drainedAt)
    retractingEvents).getD (tardyStart drainedAt)

/-- A drain with its retracted ids listed. -/
def drainListed (manager : TieringOffloadingManager P) (jobIds : List JobId) :
    TieringOffloadingManager P :=
  let deadline := manager.answer.now + 600
  let retained :=
    if manager.retractedJobIds = ∅ then manager.drainedRetractedJobIds
    else jobIds.foldl (fun drained jobId => drained.set jobId deadline)
      manager.drainedRetractedJobIds
  let now := manager.next.answer.now
  let overdue := (retained.entries.filter fun entry => entry.2 < now).map Prod.fst
  { manager.next.next with
    retractedJobIds := ∅
    drainedRetractedJobIds := overdue.foldl (fun drained jobId => drained.erase jobId) retained }

/-- The run after a drain with its retracted ids listed. -/
def drainedRun (timed : TimedRun P) (jobIds : List JobId) : TimedRun P :=
  let run := timed.state.run
  let manager := drainListed run.manager jobIds
  ⟨⟨run.withManager manager, timed.state.loads,
      Trail.give (Trail.forget timed.state.trail run.manager manager) manager.jobs⟩,
    drainOf run.manager :: timed.drains⟩

theorem drained_run_applied [CachePolicy P] (timed : TimedRun P) {jobIds : List JobId}
    (listed : timed.state.run.manager.retractedJobIds.sort (· ≤ ·) = jobIds) :
    timed.apply .drainFlushJobIds = .ok (drainedRun timed jobIds) := by
  subst listed
  rfl

theorem drained_run_reached {drainedAt : Rat}
    (ran : (EventRuns.replay TimedRun.apply TimedRun.Permitted (tardyStart drainedAt)
      retractingEvents).isSome = true)
    (only : (retractedRun drainedAt).state.run.manager.retractedJobIds = {0})
    (permitted : TimedRun.Permitted (retractedRun drainedAt) .drainFlushJobIds) :
    TimedReaches (LruPolicy.LRUCachePolicy.new 2) { numBlocks := 2 } {} [{}]
      (tardyTier drainedAt) (drainedRun (retractedRun drainedAt) [0]) := by
  obtain ⟨last, replayed⟩ := Option.isSome_iff_exists.mp ran
  have here : retractedRun drainedAt = last := by rw [retractedRun, replayed, Option.getD_some]
  have reaches := EventRuns.replay_reaches retractingEvents replayed
  rw [← here] at reaches
  refine reaches.tail ⟨_, permitted, drained_run_applied _ ?_⟩
  rw [only]
  exact Finset.sort_singleton (· ≤ ·) 0

end KvOffload.LateReports
