import KvOffload.TieringSlots

/-!
# Polling the secondary tiers

Consuming finished transfers and the two retraction scans keep the invariant: a
finished or retracted promotion settles only its own keys, and a retracted store
only keys whose timer it was.
-/

namespace KvOffload.TieringPolling

open KvOffload KvOffload.Base KvOffload.PolicyInterface KvOffload.FiniteTotals
open KvOffload.CpuManager KvOffload.CpuPool KvOffload.CpuManagerSpec
open KvOffload.Reservations KvOffload.Tiering KvOffload.TieringSlots

set_option autoImplicit false

variable {P : Type} [CachePolicy P] [LawfulCachePolicy P]

theorem complete_write_ok {manager after : TieringOffloadingManager P} {keys : List OffloadKey}
    {success : Bool} (completed : manager.completeWrite keys success = .ok after) :
    ∃ primary, after = manager.withPrimary primary ∧
      (PoolInv manager.primaryTier → PoolInv primary ∧ primary.get =
        if success then published manager.primaryTier.get keys
        else discarded manager.primaryTier.get keys) := by
  obtain ⟨primary, ok, done⟩ := bind_eq_ok.mp completed
  cases done
  refine ⟨primary, rfl, fun pool => ?_⟩
  obtain ⟨expected, expectedOk, pool', get⟩ := complete_store_ok pool keys success
  rw [ok] at expectedOk
  cases expectedOk
  exact ⟨pool', get⟩

theorem promotion_split_subset {job : TransferJob} {result : JobResult}
    {stored failed : List OffloadKey}
    (split : TieringOffloadingManager.promotionSplit job result = .ok (stored, failed)) :
    (∀ key ∈ stored, key ∈ job.keys) ∧ ∀ key ∈ failed, key ∈ job.keys := by
  unfold TieringOffloadingManager.promotionSplit at split
  split at split
  · cases split
    exact ⟨fun _ member => member, by simp⟩
  · split at split
    · cases split
      exact ⟨by simp, fun _ member => member⟩
    · obtain ⟨_, known, done⟩ := bind_eq_ok.mp split
      cases done
      exact ⟨py_assert_eq_ok.mp known, fun _ member => List.mem_of_mem_filter member⟩

theorem finish_promotion_kept {manager after : TieringOffloadingManager P}
    {result : JobResult} {job : JobMetadata}
    (found : manager.jobs.get? result.jobId = some job)
    (isPromotion : job.transferJob.isPromotion = true)
    (completed : (manager.popJob result.jobId).completePromotion job.transferJob result =
      .ok after) : Kept manager after := by
  unfold TieringOffloadingManager.completePromotion at completed
  obtain ⟨⟨stored, failed⟩, split, completed⟩ := bind_eq_ok.mp completed
  obtain ⟨storedKeys, failedKeys⟩ := promotion_split_subset split
  obtain ⟨first, firstOk, completed⟩ := bind_eq_ok.mp completed
  obtain ⟨second, secondOk, completed⟩ := bind_eq_ok.mp completed
  obtain ⟨firstPrimary, rfl, firstSpec⟩ := complete_write_ok firstOk
  obtain ⟨secondPrimary, rfl, secondSpec⟩ := complete_write_ok secondOk
  let numbers := TieringOffloadingManager.reservationsOf job.transferJob stored
  let settled := ((((manager.popJob result.jobId).withPrimary firstPrimary).withPrimary
    secondPrimary).forgetPromotionFailures stored).fillLedger numbers
  have settledKept : Kept manager settled := by
    refine ⟨fun inv => ?_, fun pool => (secondSpec (firstSpec pool).1).1, rfl, rfl⟩
    obtain ⟨firstPool, firstGet⟩ := firstSpec inv.pool
    obtain ⟨secondPool, secondGet⟩ := secondSpec firstPool
    refine settle_promotion inv found isPromotion storedKeys failedKeys secondPool ?_
      rfl rfl rfl rfl rfl
    simp only [if_true, Bool.false_eq_true, if_false] at firstGet secondGet
    refine secondGet.trans ?_
    show discarded firstPrimary.get failed = _
    rw [firstGet]
    rfl
  split at completed
  · cases completed
    exact settledKept
  · cases completed
    exact kept_trans settledKept (suppress_kept _ failed)

theorem consume_result_kept {manager after : TieringOffloadingManager P} {tierIdx : Nat}
    {result : JobResult} (consumed : manager.consumeResult tierIdx result = .ok after) :
    Kept manager after := by
  unfold TieringOffloadingManager.consumeResult at consumed
  split at consumed
  · cases consumed
    exact kept_of_same ⟨rfl, rfl, rfl, rfl, rfl, rfl, rfl⟩ rfl
  · cases found : manager.jobs.get? result.jobId with
    | none => simp [found] at consumed
    | some job =>
        simp only [found] at consumed
        obtain ⟨_, _, consumed⟩ := bind_eq_ok.mp consumed
        split at consumed
        · rename_i isPromotion
          exact finish_promotion_kept found isPromotion consumed
        · obtain ⟨primary, unpinned, done⟩ := bind_eq_ok.mp consumed
          cases done
          exact kept_trans (pop_job_kept manager result.jobId) (unpin_kept unpinned)

theorem consume_results_kept (results : List JobResult) {manager after : TieringOffloadingManager P}
    {tierIdx : Nat} (consumed : manager.consumeResults tierIdx results = .ok after) :
    Kept manager after := by
  induction results generalizing manager with
  | nil =>
      cases consumed
      exact kept_refl _
  | cons result rest ih =>
      obtain ⟨middle, first, later⟩ := bind_eq_ok.mp consumed
      exact kept_trans (consume_result_kept first) (ih later)

theorem poll_tiers_kept (tiers : List Nat) {manager after : TieringOffloadingManager P}
    (polled : manager.pollTiers tiers = .ok after) : Kept manager after := by
  induction tiers generalizing manager with
  | nil =>
      cases polled
      exact kept_refl _
  | cons tierIdx rest ih =>
      obtain ⟨middle, first, later⟩ := bind_eq_ok.mp polled
      exact kept_trans (next_kept manager)
        (kept_trans (consume_results_kept _ first) (ih later))

theorem retract_promotion_kept {manager after : TieringOffloadingManager P} {jobId : JobId}
    (promotion : ∀ job, manager.jobs.get? jobId = some job →
      job.transferJob.isPromotion = true)
    (retracted : manager.retractPromotion jobId = .ok after) : Kept manager after := by
  unfold TieringOffloadingManager.retractPromotion at retracted
  cases found : manager.jobs.get? jobId with
  | none =>
      simp only [found] at retracted
      cases retracted
      exact kept_trans (pop_job_kept manager jobId)
        (kept_of_same ⟨rfl, rfl, rfl, rfl, rfl, rfl, rfl⟩ rfl)
  | some job =>
      simp only [found] at retracted
      obtain ⟨written, writeOk, done⟩ := bind_eq_ok.mp retracted
      obtain ⟨primary, rfl, spec⟩ := complete_write_ok writeOk
      cases done
      have settledKept : Kept manager
          (((manager.popJob jobId).addRetracted jobId).withPrimary primary) := by
        refine ⟨fun inv => ?_, fun pool => (spec pool).1, rfl, rfl⟩
        obtain ⟨pool, get⟩ := spec inv.pool
        have nothingStored : ∀ key ∈ ([] : List OffloadKey), key ∈ job.transferJob.keys := by
          simp
        refine settle_promotion inv found (promotion job found) nothingStored
          (fun _ member => member) pool ?_ ?_ rfl rfl rfl rfl
        · rw [published_nil]
          exact get
        · simp [TieringOffloadingManager.reservationsOf, ReservationLedger.fill,
            TieringOffloadingManager.withPrimary, TieringOffloadingManager.addRetracted,
            TieringOffloadingManager.popJob]
      exact kept_trans settledKept (suppress_kept _ _)

omit [LawfulCachePolicy P] in
theorem retract_promotion_jobs {manager after : TieringOffloadingManager P} {jobId otherId : JobId}
    {job : JobMetadata} (retracted : manager.retractPromotion jobId = .ok after)
    (found : after.jobs.get? otherId = some job) : manager.jobs.get? otherId = some job := by
  have jobs : after.jobs = manager.jobs.erase jobId := by
    unfold TieringOffloadingManager.retractPromotion at retracted
    cases known : manager.jobs.get? jobId with
    | none =>
        simp only [known] at retracted
        cases retracted
        rfl
    | some job =>
        simp only [known] at retracted
        obtain ⟨written, writeOk, done⟩ := bind_eq_ok.mp retracted
        obtain ⟨primary, _, writeDone⟩ := bind_eq_ok.mp writeOk
        cases writeDone
        cases done
        unfold TieringOffloadingManager.suppressPromotionFailures
        split <;> rfl
  rw [jobs] at found
  exact jobs_erase_get found

theorem retract_promotions_kept (jobIds : List JobId) {manager after : TieringOffloadingManager P}
    (promotions : ∀ jobId ∈ jobIds, ∀ job, manager.jobs.get? jobId = some job →
      job.transferJob.isPromotion = true)
    (retracted : manager.retractPromotions jobIds = .ok after) : Kept manager after := by
  induction jobIds generalizing manager with
  | nil =>
      cases retracted
      exact kept_refl _
  | cons jobId rest ih =>
      obtain ⟨middle, first, later⟩ := bind_eq_ok.mp retracted
      refine kept_trans
        (retract_promotion_kept (promotions jobId List.mem_cons_self) first) (ih ?_ later)
      intro otherId member job found
      exact promotions otherId (List.mem_cons_of_mem _ member) job
        (retract_promotion_jobs first found)

theorem expire_promotions_kept {manager after : TieringOffloadingManager P}
    (expired : manager.expireStalePromotions = .ok after) : Kept manager after := by
  unfold TieringOffloadingManager.expireStalePromotions at expired
  split at expired
  · cases expired
    exact kept_refl _
  · refine kept_trans (next_kept manager) (retract_promotions_kept _ ?_ expired)
    intro jobId member job found
    obtain ⟨entry, entryMember, rfl⟩ := List.mem_map.mp member
    obtain ⟨inJobs, isExpired⟩ := List.mem_filter.mp entryMember
    have same := (manager.jobs.get_eq_some_iff entry.1 entry.2).mpr inJobs
    have sameJob : entry.2 = job := by
      have both : manager.jobs.get? entry.1 = some job := found
      rw [same] at both
      exact Option.some.inj both
    simp only [TieringOffloadingManager.promotionExpired, Bool.and_eq_true] at isExpired
    exact sameJob ▸ isExpired.1

/-- No claim and no timer stands on the key. -/
def Loose (manager : TieringOffloadingManager P) (key : OffloadKey) : Prop :=
  ¬(slotsOf manager).Claimed key ∧ ¬(slotsOf manager).armed key

theorem drop_loose_kept {manager after : TieringOffloadingManager P} {keys : List OffloadKey}
    (loose : ∀ key ∈ keys, Loose manager key)
    (dropped : manager.completeWrite keys false = .ok after) :
    Kept manager after ∧ ∀ key, Loose manager key → Loose after key := by
  obtain ⟨primary, rfl, spec⟩ := complete_write_ok dropped
  refine ⟨⟨fun inv => ?_, fun pool => (spec pool).1, rfl, rfl⟩, fun _ free => free⟩
  obtain ⟨pool, get⟩ := spec inv.pool
  simp only [Bool.false_eq_true, if_false] at get
  have phases : ∀ key, (slotsOf (manager.withPrimary primary)).phase key =
      phaseOf (discarded manager.primaryTier.get keys key) := fun key =>
    congrArg phaseOf (congrFun get key)
  have settles : Settles (slotsOf manager) (slotsOf (manager.withPrimary primary))
      (fun _ => False) (fun key => key ∈ keys) := by
    constructor
    · exact fun _ _ never => never.elim
    · intro key reserved _ member
      rw [phases, phase_discarded]
      simp [show phaseOf (manager.primaryTier.get key) = .reserved from reserved, member]
    · intro key untouched
      rw [phases, phase_discarded]
      rcases untouched with busy | ⟨_, outside⟩
      · have notReserved : phaseOf (manager.primaryTier.get key) ≠ .reserved := busy
        simp [notReserved, slotsOf]
      · simp [outside, slotsOf]
    · rfl
    · rfl
    · exact fun _ settled => settled
    · exact le_rfl
    · exact fun _ armed => armed
  have settled := settles_inv inv.slots settles
    (fun key _ touched => loose key (touched.resolve_left id)) (fun _ _ never => never.elim)
  exact ⟨⟨pool, settled.1, inv.job_ids, inv.jobs_aligned, inv.pending_aligned⟩, settled.2⟩

theorem retract_store_pends_kept (groups : List (JobId × List OffloadKey))
    {manager after : TieringOffloadingManager P}
    (loose : ∀ group ∈ groups, ∀ key ∈ group.2, Loose manager key)
    (retracted : manager.retractStorePends groups = .ok after) : Kept manager after := by
  induction groups generalizing manager with
  | nil =>
      cases retracted
      exact kept_refl _
  | cons group rest ih =>
      obtain ⟨batchJobId, keys⟩ := group
      obtain ⟨middle, first, later⟩ := bind_eq_ok.mp retracted
      have marked : Kept manager (manager.addRetracted batchJobId) :=
        kept_of_same ⟨rfl, rfl, rfl, rfl, rfl, rfl, rfl⟩ rfl
      have headLoose : ∀ key ∈ keys, Loose (manager.addRetracted batchJobId) key :=
        loose _ List.mem_cons_self
      obtain ⟨dropKept, dropLoose⟩ := drop_loose_kept headLoose first
      have counted : Kept middle middle.countRetracted :=
        kept_of_same ⟨rfl, rfl, rfl, rfl, rfl, rfl, rfl⟩ rfl
      refine kept_trans marked (kept_trans dropKept (kept_trans counted (ih ?_ later)))
      intro group member key inGroup
      exact dropLoose key (loose group (List.mem_cons_of_mem _ member) key inGroup)

/-- Whatever it drops, the retraction only touches the primary tier and the log of ids. -/
theorem retract_store_pends_frame (groups : List (JobId × List OffloadKey))
    {manager after : TieringOffloadingManager P}
    (retracted : manager.retractStorePends groups = .ok after) :
    (PoolInv manager.primaryTier → PoolInv after.primaryTier) ∧
      after.reqState = manager.reqState ∧ worldOf after = worldOf manager := by
  induction groups generalizing manager with
  | nil =>
      cases retracted
      exact ⟨id, rfl, rfl⟩
  | cons group rest ih =>
      obtain ⟨middle, first, later⟩ := bind_eq_ok.mp retracted
      obtain ⟨primary, rfl, spec⟩ := complete_write_ok first
      obtain ⟨pool, reqState, world⟩ := ih later
      exact ⟨fun before => pool (spec before).1, reqState, world⟩

/-- Disarming only stops timers. -/
theorem disarm_kept {manager after : TieringOffloadingManager P}
    (primary : after.primaryTier = manager.primaryTier) (ledger : after.ledger = manager.ledger)
    (jobs : after.jobs = manager.jobs)
    (pending : after.pendingLoadSubmissions = manager.pendingLoadSubmissions)
    (counter : manager.jobIdCounter ≤ after.jobIdCounter)
    (reqState : after.reqState = manager.reqState)
    (world : worldOf after = worldOf manager)
    (deadlines : ∀ key, after.storePendingDeadline.contains key = true →
      manager.storePendingDeadline.contains key = true) : Kept manager after := by
  refine ⟨fun inv => ?_, primary ▸ id, reqState, world⟩
  have settles : Settles (slotsOf manager) (slotsOf after) (fun _ => False)
      (fun _ => False) := by
    constructor
    · exact fun _ _ never => never.elim
    · exact fun _ _ _ never => never.elim
    · intro key _
      simp only [slotsOf, primary]
    · simp only [slotsOf, ledger]
    · simp only [slotsOf, ledger]
    · intro number settled
      simpa only [slotsOf, ledger] using settled
    · simp only [slotsOf, jobClaims, pendingClaims, jobs, pending]
      exact le_rfl
    · exact deadlines
  have settled := settles_inv inv.slots settles
    (fun _ _ touched => (touched.elim id id).elim) (fun _ _ never => never.elim)
  refine ⟨⟨primary ▸ inv.pool, settled.1, ?_, ?_, ?_⟩, settled.2⟩
  · intro jobId job found
    rw [jobs] at found
    exact (inv.job_ids jobId job found).trans_le counter
  · rw [jobs]
    exact inv.jobs_aligned
  · rw [PendingAligned, pending]
    exact inv.pending_aligned

omit [LawfulCachePolicy P] [CachePolicy P] in
theorem disarm_expired_spec (keys : List OffloadKey)
    (manager : TieringOffloadingManager P) (groups : OrderedMap JobId (List OffloadKey)) :
    ∃ owners groupsAfter,
      keys.foldl TieringOffloadingManager.disarmExpired (manager, groups) =
        (manager.withStorePends (keys.foldl (fun deadlines key => deadlines.erase key)
          manager.storePendingDeadline) owners, groupsAfter) ∧
      ∀ batch listed, groupsAfter.get? batch = some listed → ∀ key ∈ listed,
        key ∈ keys ∨ ∃ before, groups.get? batch = some before ∧ key ∈ before := by
  induction keys generalizing manager groups with
  | nil =>
      exact ⟨_, _, rfl, fun batch listed found key member => .inr ⟨listed, found, member⟩⟩
  | cons first rest ih =>
      rw [List.foldl_cons]
      unfold TieringOffloadingManager.disarmExpired
      simp only
      split
      · obtain ⟨owners, after, done, members⟩ := ih
          (manager.withStorePends (manager.storePendingDeadline.erase first)
            (manager.storePendingOwner.erase first)) groups
        refine ⟨owners, after, done, fun batch listed found key member => ?_⟩
        rcases members batch listed found key member with later | before
        · exact .inl (List.mem_cons_of_mem _ later)
        · exact .inr before
      · rename_i batchJobId _
        obtain ⟨owners, after, done, members⟩ := ih
          (manager.withStorePends (manager.storePendingDeadline.erase first)
            (manager.storePendingOwner.erase first))
          (groups.set batchJobId ((groups.get? batchJobId).getD [] ++ [first]))
        refine ⟨owners, after, done, fun batch listed found key member => ?_⟩
        rcases members batch listed found key member with later | ⟨before, beforeFound, inBefore⟩
        · exact .inl (List.mem_cons_of_mem _ later)
        · rw [OrderedMap.get_set] at beforeFound
          split at beforeFound
          · rename_i same
            cases beforeFound
            rcases List.mem_append.mp inBefore with old | new
            · cases known : groups.get? batchJobId with
              | none => simp [known] at old
              | some earlier => exact .inr ⟨earlier, same ▸ known, by simpa [known] using old⟩
            · exact .inl (List.mem_singleton.mp new ▸ List.mem_cons_self)
          · exact .inr ⟨before, beforeFound, inBefore⟩

theorem contains_erase_all {κ ν : Type} [DecidableEq κ] (keys : List κ) (map : OrderedMap κ ν)
    (key : κ) :
    (keys.foldl (fun map key => map.erase key) map).contains key = true ↔
      map.contains key = true ∧ key ∉ keys := by
  induction keys generalizing map with
  | nil => simp
  | cons first rest ih =>
      rw [List.foldl_cons, ih, List.mem_cons, not_or]
      unfold OrderedMap.contains
      rw [OrderedMap.get_erase]
      by_cases same : key = first <;> simp [same]

theorem expire_store_pends_kept {manager after : TieringOffloadingManager P}
    (expired : manager.expireStaleStorePends = .ok after) : Kept manager after := by
  unfold TieringOffloadingManager.expireStaleStorePends at expired
  split at expired
  · cases expired
    exact kept_refl _
  · simp only at expired
    generalize expired_eq : manager.expiredStorePends manager.answer.now = keys at expired
    obtain ⟨owners, groups, disarmed, members⟩ :=
      disarm_expired_spec keys manager.next OrderedMap.empty
    rw [disarmed] at expired
    simp only at expired
    have wasArmed : ∀ key ∈ keys, manager.storePendingDeadline.contains key = true := by
      intro key member
      rw [← expired_eq] at member
      obtain ⟨entry, entryMember, rfl⟩ := List.mem_map.mp member
      have found := (manager.storePendingDeadline.get_eq_some_iff entry.1 entry.2).mpr
        (List.mem_of_mem_filter entryMember)
      rw [OrderedMap.contains, found]
      rfl
    have disarmKept : Kept manager (manager.next.withStorePends
        (keys.foldl (fun deadlines key => deadlines.erase key) manager.storePendingDeadline)
        owners) := by
      refine disarm_kept rfl rfl rfl rfl le_rfl rfl rfl fun key armed => ?_
      exact ((contains_erase_all keys manager.storePendingDeadline key).mp armed).1
    obtain ⟨pool, reqState, world⟩ := retract_store_pends_frame groups.entries expired
    refine ⟨fun inv => ?_, fun before => pool (disarmKept.pool before),
      reqState.trans disarmKept.reqState, world.trans disarmKept.world⟩
    refine (kept_trans disarmKept (retract_store_pends_kept groups.entries ?_ expired)).inv inv
    intro group member key inGroup
    have found := (groups.get_eq_some_iff group.1 group.2).mpr member
    have inKeys : key ∈ keys := by
      rcases members group.1 group.2 found key inGroup with listed | ⟨before, empty, _⟩
      · exact listed
      · simp at empty
    refine ⟨(inv.slots.armed_reserved key (wasArmed key inKeys)).2, fun armed => ?_⟩
    exact ((contains_erase_all keys manager.storePendingDeadline key).mp armed).2 inKeys

/-- Polling, both retraction scans included. -/
theorem process_kept {manager after : TieringOffloadingManager P}
    (processed : manager.processFinishedJobs = .ok after) : Kept manager after := by
  obtain ⟨polled, pollOk, rest⟩ := bind_eq_ok.mp processed
  obtain ⟨promoted, promoteOk, expireOk⟩ := bind_eq_ok.mp rest
  exact kept_trans (poll_tiers_kept _ pollOk)
    (kept_trans (expire_promotions_kept promoteOk) (expire_store_pends_kept expireOk))

theorem set_processed_kept (manager : TieringOffloadingManager P) (processed : Bool) :
    Kept manager (manager.setProcessed processed) :=
  kept_of_same ⟨rfl, rfl, rfl, rfl, rfl, rfl, rfl⟩ rfl

theorem maybe_process_kept {manager after : TieringOffloadingManager P}
    (processed : manager.maybeProcessFinishedJobs = .ok after) : Kept manager after := by
  unfold TieringOffloadingManager.maybeProcessFinishedJobs at processed
  split at processed
  · cases processed
    exact kept_refl _
  · exact kept_trans (set_processed_kept manager true) (process_kept processed)

end KvOffload.TieringPolling
