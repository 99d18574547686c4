import KvOffload.PinnedBlocks
import KvOffload.TieringOperations

/-!
# Books of the running transfers

Between two polls the manager only adds to its books: the running jobs stay, a
new job or store batch takes a number from the counter, the retracted jobs are
left alone, and no block loses a pin that a running store still needs.
-/

namespace KvOffload.TransferBooks

open KvOffload KvOffload.Base KvOffload.PolicyInterface KvOffload.FiniteTotals
open KvOffload.CpuManager KvOffload.CpuPool KvOffload.CpuManagerSpec KvOffload.Tiering
open KvOffload.TieringSlots KvOffload.TieringPolling KvOffload.TieringOperations
open KvOffload.PolicyMoves KvOffload.PinnedBlocks

set_option autoImplicit false

variable {P : Type}

/-- The pins that running stores will release. -/
def jobPins (job : JobMetadata) : Multiset OffloadKey :=
  if job.transferJob.isPromotion then 0 else (job.transferJob.keys : Multiset OffloadKey)

def storePins (manager : TieringOffloadingManager P) : Multiset OffloadKey :=
  mapTotal manager.jobs jobPins

variable [CachePolicy P] [LawfulCachePolicy P] [TrackedPolicy P]

/-- Every number in the books came from the counter. -/
structure Booked (manager : TieringOffloadingManager P) : Prop where
  pool : Steady manager.primaryTier
  jobs : ∀ jobId job, manager.jobs.get? jobId = some job → jobId < manager.jobIdCounter
  owners : ∀ key owner, manager.storePendingOwner.get? key = some owner →
    owner.2 < manager.jobIdCounter

/-- What the manager does to its books between two polls. -/
structure Advanced (manager after : TieringOffloadingManager P) : Prop where
  counter : manager.jobIdCounter ≤ after.jobIdCounter
  jobs : ∀ jobId, jobId < manager.jobIdCounter → after.jobs.get? jobId = manager.jobs.get? jobId
  owners : ∀ key owner, after.storePendingOwner.get? key = some owner →
    (∃ old, manager.storePendingOwner.get? old = some owner) ∨
      (manager.jobIdCounter ≤ owner.2 ∧ after.jobs.get? owner.2 = none)
  retracted : after.retractedJobIds = manager.retractedJobIds
  drained : after.drainedRetractedJobIds = manager.drainedRetractedJobIds
  pins : ∀ key, pins manager.primaryTier key + (storePins after).count key ≤
    pins after.primaryTier key + (storePins manager).count key

/-- A step that does not poll. -/
structure Quiet (manager after : TieringOffloadingManager P) : Prop where
  books : Booked manager → Booked after ∧ Advanced manager after
  gate : after.processedJobsThisStep = manager.processedJobsThisStep

omit [LawfulCachePolicy P] in
theorem advanced_refl (manager : TieringOffloadingManager P) : Advanced manager manager :=
  ⟨le_rfl, fun _ _ => rfl, fun key _ found => .inl ⟨key, found⟩, rfl, rfl, fun _ => le_rfl⟩

theorem advanced_trans {first second third : TieringOffloadingManager P}
    (booked : Booked second) (left : Advanced first second) (right : Advanced second third) :
    Advanced first third := by
  refine ⟨left.counter.trans right.counter, ?_, ?_, right.retracted.trans left.retracted,
    right.drained.trans left.drained, ?_⟩
  · intro jobId known
    rw [right.jobs jobId (known.trans_le left.counter), left.jobs jobId known]
  · intro key owner found
    rcases right.owners key owner found with ⟨middle, before⟩ | ⟨late, free⟩
    · rcases left.owners middle owner before with old | ⟨late, free⟩
      · exact .inl old
      · exact .inr ⟨late, (right.jobs owner.2 (booked.owners middle owner before)).trans free⟩
    · exact .inr ⟨left.counter.trans late, free⟩
  · intro key
    have firstPins := left.pins key
    have secondPins := right.pins key
    omega

theorem quiet_refl (manager : TieringOffloadingManager P) : Quiet manager manager :=
  ⟨fun booked => ⟨booked, advanced_refl manager⟩, rfl⟩

theorem quiet_trans {first second third : TieringOffloadingManager P}
    (left : Quiet first second) (right : Quiet second third) : Quiet first third := by
  refine ⟨fun booked => ?_, right.gate.trans left.gate⟩
  obtain ⟨middle, leftMoves⟩ := left.books booked
  obtain ⟨last, rightMoves⟩ := right.books middle
  exact ⟨last, advanced_trans middle leftMoves rightMoves⟩

/-- The fields that the books are read from. -/
structure SameTrail (manager after : TieringOffloadingManager P) : Prop where
  counter : after.jobIdCounter = manager.jobIdCounter
  jobs : after.jobs = manager.jobs
  owners : after.storePendingOwner = manager.storePendingOwner
  retracted : after.retractedJobIds = manager.retractedJobIds
  drained : after.drainedRetractedJobIds = manager.drainedRetractedJobIds
  gate : after.processedJobsThisStep = manager.processedJobsThisStep

theorem advanced_of_same {manager after : TieringOffloadingManager P}
    (same : SameTrail manager after) (booked : Booked manager)
    (primary : Steady manager.primaryTier → Steady after.primaryTier ∧
      ∀ key, pins manager.primaryTier key ≤ pins after.primaryTier key) :
    Booked after ∧ Advanced manager after := by
  obtain ⟨counter, jobs, owners, retracted, drained, _⟩ := same
  obtain ⟨pool, grown⟩ := primary booked.pool
  refine ⟨⟨pool, ?_, ?_⟩, ⟨counter.ge, ?_, ?_, retracted, drained, ?_⟩⟩
  · rw [jobs, counter]
    exact booked.jobs
  · rw [owners, counter]
    exact booked.owners
  · intro jobId _
    rw [jobs]
  · intro key owner found
    exact .inl ⟨key, owners ▸ found⟩
  · intro key
    have more := grown key
    simp only [storePins, jobs]
    omega

theorem quiet_of_same {manager after : TieringOffloadingManager P}
    (same : SameTrail manager after) (primary : after.primaryTier = manager.primaryTier) :
    Quiet manager after := by
  refine ⟨fun booked => ?_, same.gate⟩
  apply advanced_of_same same booked
  intro pool
  rw [primary]
  exact ⟨pool, fun _ => le_rfl⟩

theorem primary_quiet {manager : TieringOffloadingManager P} {primary : CPUOffloadingManager P}
    (moved : Steady manager.primaryTier → Steady primary ∧
      ∀ key, pins manager.primaryTier key ≤ pins primary key) :
    Quiet manager (manager.withPrimary primary) :=
  ⟨fun booked => advanced_of_same ⟨rfl, rfl, rfl, rfl, rfl, rfl⟩ booked moved, rfl⟩

section Steps

theorem look_up_quiet {manager : TieringOffloadingManager P} {primary : CPUOffloadingManager P}
    (same : SamePool manager.primaryTier primary) :
    Quiet manager (manager.withPrimary primary) := by
  apply primary_quiet
  intro pool
  obtain ⟨afterPool, sameGet⟩ := steady_of_same pool same
  exact ⟨afterPool, fun key => (pins_congr (sameGet key)).ge⟩

theorem call_quiet (manager : TieringOffloadingManager P) (tierIdx : Nat) (tierCall : TierCall) :
    Quiet manager (manager.call tierIdx tierCall) :=
  quiet_of_same ⟨rfl, rfl, rfl, rfl, rfl, rfl⟩ rfl

theorem call_all_quiet (manager : TieringOffloadingManager P) (tierCall : TierCall) :
    Quiet manager (manager.callAll tierCall) := by
  unfold TieringOffloadingManager.callAll
  induction List.range manager.secondaryTiers.length generalizing manager with
  | nil => exact quiet_refl manager
  | cons tierIdx rest ih => exact quiet_trans (call_quiet manager tierIdx tierCall) (ih _)

theorem next_quiet (manager : TieringOffloadingManager P) : Quiet manager manager.next :=
  quiet_of_same ⟨rfl, rfl, rfl, rfl, rfl, rfl⟩ rfl

theorem set_request_quiet (manager : TieringOffloadingManager P) (reqId : ReqId)
    (state : RequestState) : Quiet manager (manager.setRequest reqId state) :=
  quiet_of_same ⟨rfl, rfl, rfl, rfl, rfl, rfl⟩ rfl

/-- A job under the next number, whose pins have been taken. -/
theorem register_quiet {manager : TieringOffloadingManager P} {primary : CPUOffloadingManager P}
    {job : TransferJob} (tierIdx : Nat) (jobId : job.jobId = manager.jobIdCounter)
    (pinned : Steady manager.primaryTier → Steady primary ∧ ∀ key,
      pins manager.primaryTier key + (jobPins ⟨job, tierIdx⟩).count key ≤ pins primary key) :
    Quiet manager ((manager.withPrimary primary).nextJobId.registerJob job tierIdx) := by
  refine ⟨fun booked => ?_, rfl⟩
  obtain ⟨pool, taken⟩ := pinned booked.pool
  have fresh : manager.jobs.get? job.jobId = none := by
    cases found : manager.jobs.get? job.jobId with
    | none => rfl
    | some old => exact absurd (booked.jobs _ old found) (jobId ▸ lt_irrefl _)
  refine ⟨⟨pool, ?_, ?_⟩, ⟨Nat.le_succ _, ?_, ?_, rfl, rfl, ?_⟩⟩
  · intro otherId other found
    show otherId < manager.jobIdCounter + 1
    by_cases same : otherId = job.jobId
    · rw [same, jobId]
      exact Nat.lt_succ_self _
    · have before : manager.jobs.get? otherId = some other :=
        (manager.jobs.get_set_of_ne _ same).symm.trans found
      exact Nat.lt_succ_of_lt (booked.jobs otherId other before)
  · exact fun key owner found => Nat.lt_succ_of_lt (booked.owners key owner found)
  · intro otherId known
    exact manager.jobs.get_set_of_ne _ (ne_of_lt (jobId ▸ known))
  · exact fun key owner found => .inl ⟨key, found⟩
  · intro key
    have added : storePins ((manager.withPrimary primary).nextJobId.registerJob job tierIdx) =
        storePins manager + jobPins ⟨job, tierIdx⟩ := by
      have total := map_total_set manager.jobs job.jobId ⟨job, tierIdx⟩ jobPins
      rw [fresh, Option.elim_none, add_zero] at total
      exact total
    have enough := taken key
    show _ ≤ pins primary key + _
    rw [added, Multiset.count_add]
    omega

theorem create_store_job_quiet {manager after : TieringOffloadingManager P}
    {keys : List OffloadKey} {reqContext : ReqContext} {tierIdx : Nat} {job : TransferJob}
    (created : manager.createStoreJob keys reqContext tierIdx = .ok (job, after)) :
    Quiet manager after := by
  obtain ⟨⟨blockIds, primary⟩, loaded, done⟩ := bind_eq_ok.mp created
  cases done
  apply register_quiet tierIdx rfl
  intro pool
  obtain ⟨afterPool, taken⟩ := prepare_load_spec keys pool loaded
  exact ⟨afterPool, fun key => by simpa [jobPins] using (taken key).ge⟩

theorem cascade_quiet (tiers : List Nat) {manager after : TieringOffloadingManager P}
    {keys : List OffloadKey} {reqContext : ReqContext}
    (cascaded : manager.cascade keys reqContext tiers = .ok after) : Quiet manager after := by
  induction tiers generalizing manager with
  | nil =>
      cases cascaded
      exact quiet_refl _
  | cons tierIdx rest ih =>
      obtain ⟨⟨job, middle⟩, created, later⟩ := bind_eq_ok.mp cascaded
      exact quiet_trans (create_store_job_quiet created)
        (quiet_trans (call_quiet middle tierIdx _) (ih later))

theorem ready_keys_quiet (keys : List OffloadKey) {manager after : TieringOffloadingManager P}
    {ready : List OffloadKey} (found : manager.readyKeys keys = .ok (ready, after)) :
    Quiet manager after := by
  induction keys generalizing manager ready with
  | nil =>
      cases found
      exact quiet_refl _
  | cons key rest ih =>
      obtain ⟨⟨result, primary⟩, looked, found⟩ := bind_eq_ok.mp found
      obtain ⟨⟨others, last⟩, later, done⟩ := bind_eq_ok.mp found
      cases done
      exact quiet_trans (look_up_quiet (lookup_spec looked).1) (ih later)

theorem cascade_existing_quiet {manager after : TieringOffloadingManager P}
    {keys : List OffloadKey} {reqContext : ReqContext} {tiers : List Nat}
    (cascaded : manager.cascadeExistingBlocksToRequestLevelTiers keys reqContext tiers =
      .ok after) : Quiet manager after := by
  obtain ⟨⟨ready, middle⟩, found, cascaded⟩ := bind_eq_ok.mp cascaded
  have readyQuiet := ready_keys_quiet keys found
  by_cases empty : ready = []
  · simp only [empty, if_true] at cascaded
    cases cascaded
    exact readyQuiet
  · simp only [empty, if_false] at cascaded
    exact quiet_trans readyQuiet (cascade_quiet _ cascaded)

theorem initiate_promotion_quiet {manager after : TieringOffloadingManager P} {tierIdx : Nat}
    {key : OffloadKey} {reqContext : ReqContext} {promoted : Bool}
    (initiated : manager.initiatePromotion tierIdx key reqContext = .ok (promoted, after)) :
    Quiet manager after := by
  obtain ⟨⟨output, primary⟩, prepared, done⟩ := bind_eq_ok.mp initiated
  have reserved : Quiet manager (manager.withPrimary primary) := by
    apply primary_quiet
    intro pool
    obtain ⟨afterPool, same⟩ := prepare_store_steady pool prepared
    exact ⟨afterPool, fun key => (same key).ge⟩
  cases output with
  | none =>
      cases done
      exact reserved
  | some output =>
      cases done
      exact quiet_trans reserved (quiet_of_same ⟨rfl, rfl, rfl, rfl, rfl, rfl⟩ rfl)

theorem filter_tier_hit_quiet (manager : TieringOffloadingManager P) (key : OffloadKey)
    (startTime : Rat) (result : LookupResult) :
    Quiet manager (manager.filterTierHit key startTime result).2 := by
  unfold TieringOffloadingManager.filterTierHit
  split
  · split
    · exact quiet_refl manager
    · split
      · exact quiet_refl manager
      · exact quiet_of_same ⟨rfl, rfl, rfl, rfl, rfl, rfl⟩ rfl
  · exact quiet_refl manager

theorem lookup_tiers_quiet (tiers : List (Nat × TierInfo))
    {manager after : TieringOffloadingManager P} {key : OffloadKey} {reqContext : ReqContext}
    {excludeTierIdx : Option Nat} {anyRetry : Bool} {result : LookupResult}
    (looked : manager.lookupTiers key reqContext excludeTierIdx anyRetry tiers =
      .ok (result, after)) : Quiet manager after := by
  induction tiers generalizing manager anyRetry with
  | nil =>
      cases looked
      exact quiet_refl _
  | cons tier rest ih =>
      unfold TieringOffloadingManager.lookupTiers at looked
      split at looked
      · exact ih looked
      · have filtered := filter_tier_hit_quiet manager.next key manager.answer.now
          manager.answer.lookup
        generalize manager.next.filterTierHit key manager.answer.now manager.answer.lookup =
          answered at looked filtered
        obtain ⟨answer, middle⟩ := answered
        have middleQuiet := quiet_trans (next_quiet manager) filtered
        cases answer with
        | hit =>
            obtain ⟨⟨promoted, last⟩, initiated, done⟩ := bind_eq_ok.mp looked
            cases done
            exact quiet_trans middleQuiet (initiate_promotion_quiet initiated)
        | miss => exact quiet_trans middleQuiet (ih looked)
        | hitPending => exact quiet_trans middleQuiet (ih looked)
        | retry => exact quiet_trans middleQuiet (ih looked)

/-- A lookup polls first, if this step has not polled yet. -/
theorem lookup_quiet {manager after : TieringOffloadingManager P} {key : OffloadKey}
    {reqContext : ReqContext} {excludeTierIdx : Option Nat} {result : LookupResult}
    (looked : manager.lookup key reqContext excludeTierIdx = .ok (result, after)) :
    ∃ polled, manager.maybeProcessFinishedJobs = .ok polled ∧ Quiet polled after := by
  obtain ⟨polled, pollOk, looked⟩ := bind_eq_ok.mp looked
  obtain ⟨⟨primaryHit, primary⟩, primaryOk, looked⟩ := bind_eq_ok.mp looked
  have primaryQuiet := look_up_quiet (lookup_spec primaryOk).1
  refine ⟨polled, pollOk, ?_⟩
  cases primaryHit with
  | hit =>
      cases looked
      exact primaryQuiet
  | hitPending =>
      cases looked
      exact primaryQuiet
  | miss => exact quiet_trans primaryQuiet (lookup_tiers_quiet _ looked)
  | retry => exact quiet_trans primaryQuiet (lookup_tiers_quiet _ looked)

omit [CachePolicy P] [LawfulCachePolicy P] in
theorem owners_set_all (keys : List OffloadKey) (owner : ReqContext × JobId)
    {owners : OrderedMap OffloadKey (ReqContext × JobId)} {key : OffloadKey}
    {found : ReqContext × JobId}
    (held : (keys.foldl (fun owners key => owners.set key owner) owners).get? key = some found) :
    owners.get? key = some found ∨ found = owner := by
  induction keys generalizing owners with
  | nil => exact .inl held
  | cons first rest ih =>
      rcases ih held with before | new
      · rw [OrderedMap.get_set] at before
        split at before
        · exact .inr (Option.some.inj before).symm
        · exact .inl before
      · exact .inr new

/-- The batch of a store takes the next number and runs as no job. -/
theorem arm_quiet (manager : TieringOffloadingManager P) (reqContext : ReqContext)
    (state : RequestState) (keys : List OffloadKey) :
    Quiet manager (manager.armStorePends reqContext state keys) := by
  unfold TieringOffloadingManager.armStorePends
  split
  · exact quiet_of_same ⟨rfl, rfl, rfl, rfl, rfl, rfl⟩ rfl
  · refine ⟨fun booked => ⟨⟨booked.pool, ?_, ?_⟩, ⟨Nat.le_succ _, fun _ _ => rfl, ?_, rfl, rfl,
      fun _ => le_rfl⟩⟩, rfl⟩
    · exact fun jobId job found => Nat.lt_succ_of_lt (booked.jobs jobId job found)
    · intro key owner found
      rcases owners_set_all keys _ found with before | new
      · exact Nat.lt_succ_of_lt (booked.owners key owner before)
      · rw [new]
        exact Nat.lt_succ_self _
    · intro key owner found
      rcases owners_set_all keys _ found with before | new
      · exact .inl ⟨key, before⟩
      · refine .inr ⟨by rw [new], ?_⟩
        show manager.jobs.get? owner.2 = none
        rw [new]
        cases running : manager.jobs.get? manager.jobIdCounter with
        | none => rfl
        | some job => exact absurd (booked.jobs _ job running) (lt_irrefl _)

theorem prepare_store_quiet {manager after : TieringOffloadingManager P}
    {keys : List OffloadKey} {reqContext : ReqContext} {output : Option PrepareStoreOutput}
    (prepared : manager.prepareStore keys reqContext = .ok (output, after)) :
    ∃ polled, manager.maybeProcessFinishedJobs = .ok polled ∧ Quiet polled after := by
  obtain ⟨polled, pollOk, prepared⟩ := bind_eq_ok.mp prepared
  obtain ⟨⟨result, primary⟩, primaryOk, prepared⟩ := bind_eq_ok.mp prepared
  refine ⟨polled, pollOk, ?_⟩
  have reserved : Quiet polled (polled.withPrimary primary) := by
    apply primary_quiet
    intro pool
    obtain ⟨afterPool, same⟩ := prepare_store_steady pool primaryOk
    exact ⟨afterPool, fun key => (same key).ge⟩
  cases result with
  | none =>
      cases prepared
      exact reserved
  | some out =>
      obtain ⟨state, _, prepared⟩ := bind_eq_ok.mp prepared
      have stored : Quiet polled (storedManager polled primary reqContext state
          out.keysToStore) := by
        unfold storedManager
        split
        · exact reserved
        · exact quiet_trans reserved (arm_quiet _ reqContext state out.keysToStore)
      change (if _ then _ else _) = _ at prepared
      split at prepared
      · cases prepared
        exact stored
      · obtain ⟨last, cascaded, done⟩ := bind_eq_ok.mp prepared
        cases done
        exact quiet_trans stored (cascade_existing_quiet cascaded)

theorem complete_write_quiet {manager after : TieringOffloadingManager P}
    {keys : List OffloadKey} {success : Bool}
    (written : manager.completeWrite keys success = .ok after) : Quiet manager after := by
  obtain ⟨primary, completed, done⟩ := bind_eq_ok.mp written
  cases done
  apply primary_quiet
  intro pool
  obtain ⟨last, returned, afterPool, same, _⟩ := complete_store_returns pool keys success
  cases returned.symm.trans completed
  exact ⟨afterPool, fun key => (same key).ge⟩

omit [CachePolicy P] [LawfulCachePolicy P] in
theorem owners_disarmed (keys : List OffloadKey) (armed : OffloadKey → Bool)
    {owners : OrderedMap OffloadKey (ReqContext × JobId)} {key : OffloadKey}
    {found : ReqContext × JobId}
    (held : (keys.foldl (fun owners key => if armed key then owners.erase key else owners)
      owners).get? key = some found) : owners.get? key = some found := by
  induction keys generalizing owners with
  | nil => exact held
  | cons first rest ih =>
      have before := ih held
      dsimp only at before
      split at before
      · rw [OrderedMap.get_erase] at before
        split at before
        · cases before
        · exact before
      · exact before

/-- Dropping owners keeps the rest of the books. -/
theorem drop_owners_quiet {manager : TieringOffloadingManager P}
    (deadlines : OrderedMap OffloadKey Rat) {owners : OrderedMap OffloadKey (ReqContext × JobId)}
    (fewer : ∀ key owner, owners.get? key = some owner →
      manager.storePendingOwner.get? key = some owner) :
    Quiet manager (manager.withStorePends deadlines owners) :=
  ⟨fun booked => ⟨⟨booked.pool, booked.jobs,
      fun key owner found => booked.owners key owner (fewer key owner found)⟩,
    ⟨le_rfl, fun _ _ => rfl, fun key owner found => .inl ⟨key, fewer key owner found⟩, rfl, rfl,
      fun _ => le_rfl⟩⟩, rfl⟩

theorem disarm_quiet (manager : TieringOffloadingManager P) (keys : List OffloadKey) :
    Quiet manager (manager.disarmStorePends keys) :=
  drop_owners_quiet _ fun _ _ found =>
    owners_disarmed keys manager.storePendingDeadline.contains found

theorem forward_finished_quiet (manager : TieringOffloadingManager P) (reqContext : ReqContext)
    (excludeTierIdx : Option Nat) :
    Quiet manager (manager.forwardRequestFinished reqContext excludeTierIdx) := by
  unfold TieringOffloadingManager.forwardRequestFinished
  induction List.range manager.secondaryTiers.length generalizing manager with
  | nil => exact quiet_refl manager
  | cons tierIdx rest ih =>
      rw [List.foldl_cons]
      split
      · exact ih manager
      · exact quiet_trans (call_quiet manager tierIdx _) (ih _)

theorem finalize_quiet {manager after : TieringOffloadingManager P} {reqId : ReqId}
    {excludeTierIdx : Option Nat}
    (finalized : manager.maybeFinalizeRequest reqId excludeTierIdx = .ok after) :
    Quiet manager after := by
  obtain ⟨state, _, finalized⟩ := bind_eq_ok.mp finalized
  split at finalized
  · cases finalized
    exact quiet_refl manager
  · cases finalized
    exact quiet_trans (forward_finished_quiet manager state.reqContext excludeTierIdx)
      (quiet_of_same ⟨rfl, rfl, rfl, rfl, rfl, rfl⟩ rfl)

theorem settle_request_quiet {manager after : TieringOffloadingManager P} {reqId : ReqId}
    (settled : manager.settleRequest reqId = .ok after) : Quiet manager after := by
  obtain ⟨state, _, settled⟩ := bind_eq_ok.mp settled
  obtain ⟨_, _, finalized⟩ := bind_eq_ok.mp settled
  exact quiet_trans (set_request_quiet manager reqId _) (finalize_quiet finalized)

theorem complete_store_quiet {manager after : TieringOffloadingManager P}
    {keys : List OffloadKey} {reqContext : ReqContext} {success : Bool}
    (completed : manager.completeStore keys reqContext success = .ok after) :
    Quiet manager after := by
  obtain ⟨written, writeOk, completed⟩ := bind_eq_ok.mp completed
  have disarmed := quiet_trans (complete_write_quiet writeOk) (disarm_quiet written keys)
  dsimp only at completed
  split at completed
  · obtain ⟨cascaded, cascadeOk, settled⟩ := bind_eq_ok.mp completed
    exact quiet_trans disarmed
      (quiet_trans (cascade_quiet _ cascadeOk) (settle_request_quiet settled))
  · exact quiet_trans disarmed (settle_request_quiet completed)

theorem ask_policies_quiet (tiers : List Nat) (manager : TieringOffloadingManager P)
    (excludeTierIdx : Option Nat) :
    Quiet manager (manager.askPolicies excludeTierIdx tiers).2 := by
  induction tiers generalizing manager with
  | nil => exact quiet_refl manager
  | cons tierIdx rest ih =>
      unfold TieringOffloadingManager.askPolicies
      split
      · exact ih manager
      · exact quiet_trans (next_quiet manager) (ih manager.next)

theorem new_request_quiet (manager : TieringOffloadingManager P) (reqContext : ReqContext)
    (excludeTierIdx : Option Nat) :
    Quiet manager (manager.onNewRequest reqContext excludeTierIdx).2 := by
  unfold TieringOffloadingManager.onNewRequest
  exact quiet_trans (ask_policies_quiet _ manager excludeTierIdx) (set_request_quiet _ _ _)

theorem request_finished_quiet {manager after : TieringOffloadingManager P}
    {reqContext : ReqContext} {excludeTierIdx : Option Nat}
    (finished : manager.onRequestFinished reqContext excludeTierIdx = .ok after) :
    Quiet manager after := by
  obtain ⟨state, _, finished⟩ := bind_eq_ok.mp finished
  exact quiet_trans (set_request_quiet manager _ _) (finalize_quiet finished)

theorem touch_quiet (manager : TieringOffloadingManager P) (keys : List OffloadKey) :
    Quiet manager (manager.touch keys) := by
  refine quiet_trans (primary_quiet fun steady => ?_) (call_all_quiet _ (.touch keys))
  obtain ⟨afterSteady, same⟩ := touch_steady steady keys
  exact ⟨afterSteady, fun key => (pins_congr (same key)).ge⟩

/-- The tiers are served after the step's poll, so their lookups do not poll. -/
theorem serve_call_quiet {manager after : TieringOffloadingManager P} {tierIdx : Nat}
    {parentCall : ParentCall} (polled : manager.processedJobsThisStep = true)
    (served : manager.serveCall tierIdx parentCall = .ok after) : Quiet manager after := by
  cases parentCall with
  | onNewRequest reqContext =>
      cases served
      exact new_request_quiet manager reqContext _
  | lookup key reqContext =>
      obtain ⟨⟨result, last⟩, looked, done⟩ := bind_eq_ok.mp served
      cases done
      obtain ⟨same, pollOk, quiet⟩ := lookup_quiet looked
      rw [TieringOffloadingManager.maybeProcessFinishedJobs, if_pos polled] at pollOk
      cases pollOk
      exact quiet
  | createStoreJob keys reqContext =>
      obtain ⟨⟨job, last⟩, created, done⟩ := bind_eq_ok.mp served
      cases done
      exact create_store_job_quiet created
  | onRequestFinished reqContext => exact request_finished_quiet served

theorem serve_calls_quiet (calls : List ParentCall) {manager after : TieringOffloadingManager P}
    {tierIdx : Nat} (polled : manager.processedJobsThisStep = true)
    (served : manager.serveCalls tierIdx calls = .ok after) : Quiet manager after := by
  induction calls generalizing manager with
  | nil =>
      cases served
      exact quiet_refl _
  | cons parentCall rest ih =>
      obtain ⟨middle, first, later⟩ := bind_eq_ok.mp served
      have quiet := serve_call_quiet polled first
      exact quiet_trans quiet (ih (quiet.gate.trans polled) later)

theorem serve_external_quiet (tiers : List Nat) {manager after : TieringOffloadingManager P}
    (polled : manager.processedJobsThisStep = true)
    (served : manager.serveExternalRequests tiers = .ok after) : Quiet manager after := by
  induction tiers generalizing manager with
  | nil =>
      cases served
      exact quiet_refl _
  | cons tierIdx rest ih =>
      obtain ⟨middle, first, later⟩ := bind_eq_ok.mp served
      have quiet := quiet_trans (next_quiet manager) (serve_calls_quiet _ polled first)
      exact quiet_trans quiet (ih (quiet.gate.trans polled) later)

theorem submit_promotion_quiet (manager : TieringOffloadingManager P) (tierIdx : Nat)
    (entry : PendingPromotion) : Quiet manager (manager.submitPromotion tierIdx entry) := by
  refine quiet_trans (register_quiet tierIdx rfl ?_) (call_quiet _ _ _)
  exact fun pool => ⟨pool, fun key => by simp [jobPins]⟩

theorem flush_quiet (manager : TieringOffloadingManager P) :
    Quiet manager manager.flushPendingPromotions := by
  have submitted : ∀ (queued : List (Nat × PendingPromotion))
      (manager : TieringOffloadingManager P), Quiet manager (queued.foldl
        (fun manager queued => manager.submitPromotion queued.1 queued.2) manager) := by
    intro queued
    induction queued with
    | nil => exact quiet_refl
    | cons first rest ih =>
        intro manager
        exact quiet_trans (submit_promotion_quiet manager first.1 first.2) (ih _)
  exact quiet_trans (submitted manager.queuedPromotions manager)
    (quiet_of_same ⟨rfl, rfl, rfl, rfl, rfl, rfl⟩ rfl)

/-- The end of a step polls first, if the step has not polled yet, and opens the gate. -/
theorem schedule_end_quiet {manager after : TieringOffloadingManager P}
    {context : ScheduleEndContext} (ended : manager.onScheduleEnd context = .ok after) :
    ∃ polled, manager.maybeProcessFinishedJobs = .ok polled ∧
      (polled.processedJobsThisStep = true →
        Booked polled → Booked after ∧ Advanced polled after) := by
  obtain ⟨polled, pollOk, ended⟩ := bind_eq_ok.mp ended
  obtain ⟨served, serveOk, ended⟩ := bind_eq_ok.mp ended
  cases ended
  refine ⟨polled, pollOk, fun closed booked => ?_⟩
  obtain ⟨servedBooked, serving⟩ := (serve_external_quiet _ closed serveOk).books booked
  have opened : Booked (served.setProcessed false) ∧
      Advanced served (served.setProcessed false) :=
    ⟨⟨servedBooked.pool, servedBooked.jobs, servedBooked.owners⟩,
      ⟨le_rfl, fun _ _ => rfl, fun key _ found => .inl ⟨key, found⟩, rfl, rfl, fun _ => le_rfl⟩⟩
  obtain ⟨lastBooked, last⟩ := (quiet_trans (flush_quiet (served.setProcessed false))
    (call_all_quiet _ (.onScheduleEnd context))).books opened.1
  exact ⟨lastBooked, advanced_trans servedBooked serving
    (advanced_trans opened.1 opened.2 last)⟩

end Steps

end KvOffload.TransferBooks
