import KvOffload.TieringPolling

/-!
# Operations of the tiering manager

One specification lemma for each operation of the interface: what it does to the
slots, to the request states, and under which condition a completed store keeps
the invariant.
-/

namespace KvOffload.TieringOperations

open KvOffload KvOffload.Base KvOffload.PolicyInterface KvOffload.FiniteTotals
open KvOffload.CpuManager KvOffload.CpuPool KvOffload.CpuManagerSpec
open KvOffload.Reservations KvOffload.Tiering KvOffload.TieringSlots KvOffload.TieringPolling

set_option autoImplicit false

variable {P : Type} [CachePolicy P] [LawfulCachePolicy P]

section Reserving

omit [CachePolicy P] [LawfulCachePolicy P] in
theorem set_all_get {κ ν : Type} [DecidableEq κ] (entries : List (κ × ν)) (map : OrderedMap κ ν)
    (distinct : (entries.map Prod.fst).Nodup) (key : κ) :
    (entries.foldl (fun map entry => map.set entry.1 entry.2) map).get? key =
      (assocGet entries key).or (map.get? key) := by
  induction entries generalizing map with
  | nil => simp [assocGet]
  | cons entry rest ih =>
      rw [List.map_cons, List.nodup_cons] at distinct
      rw [List.foldl_cons, ih _ distinct.2, OrderedMap.get_set]
      by_cases same : entry.1 = key
      · have absent : assocGet rest key = none :=
          (assoc_get_eq_none_iff rest key).mpr (same ▸ distinct.1)
        simp [assocGet, same, absent]
      · have different : ¬key = entry.1 := fun equal => same equal.symm
        simp [assocGet, same, different]

theorem ledger_reserve_get (ledger : ReservationLedger) {keys : List OffloadKey}
    (distinct : keys.Nodup) (key : OffloadKey) :
    (ledger.reserve keys).current.get? key =
      (reservedAt keys (ledger.numbers keys) key).or (ledger.current.get? key) := by
  apply set_all_get
  rw [List.map_fst_zip (by simp [ReservationLedger.numbers])]
  exact distinct

theorem ledger_numbers_length (ledger : ReservationLedger) (keys : List OffloadKey) :
    (ledger.numbers keys).length = keys.length := by
  simp [ReservationLedger.numbers]

theorem ledger_numbers_fresh {ledger : ReservationLedger} {keys : List OffloadKey} {number : Nat}
    (member : number ∈ ledger.numbers keys) :
    ledger.next ≤ number ∧ number < (ledger.reserve keys).next := by
  rw [ReservationLedger.numbers, List.mem_range'_1] at member
  exact member

/-- The slots after the primary tier accepted a write of new keys. -/
theorem reserve_slots {manager after : TieringOffloadingManager P} (inv : TieringInv manager)
    {keys : List OffloadKey} {output : PrepareStoreOutput}
    (reserved : StoreReserved manager.primaryTier keys output after.primaryTier)
    (ledger : after.ledger = manager.ledger.reserve output.keysToStore)
    (added : Multiset (OffloadKey × Nat))
    (claims : (slotsOf after).claims = (slotsOf manager).claims + added)
    (addedEntries : added ≤
      (output.keysToStore.zip (manager.ledger.numbers output.keysToStore) :
        Multiset (OffloadKey × Nat)))
    (armed : ∀ key, (slotsOf after).armed key → (slotsOf manager).armed key ∨
      (key ∈ output.keysToStore ∧ added = 0)) :
    (slotsOf after).Inv ∧ (slotsOf manager).Grows (slotsOf after) := by
  have lengths := ledger_numbers_length manager.ledger output.keysToStore
  have holder : ∀ key, (slotsOf after).holder key =
      (reservedAt output.keysToStore (manager.ledger.numbers output.keysToStore) key).or
        ((slotsOf manager).holder key) := by
    intro key
    show after.ledger.current.get? key = _
    rw [ledger, ledger_reserve_get _ reserved.distinct]
    rfl
  have phases : ∀ key, (slotsOf after).phase key =
      phaseOf (((reservedAt output.keysToStore output.storeSpec key).map BlockStatus.new).or
        (if key ∈ output.evictedKeys then none else manager.primaryTier.get key)) := fun key =>
    congrArg phaseOf (reserved.get_after key)
  refine reserves_inv inv.slots (?_ : Reserves _ _ output.keysToStore added)
  constructor
  · intro key member
    show phaseOf (manager.primaryTier.get key) = .vacant
    rw [reserved.fresh key member]
    rfl
  · intro key member
    obtain ⟨blockId, found⟩ := Option.isSome_iff_exists.mp
      ((reserved_at_is_some reserved.length_eq key).mpr member)
    rw [phases, found]
    rfl
  · intro key outside
    rw [phases, reserved_at_eq_none reserved.length_eq outside]
    by_cases evicted : key ∈ output.evictedKeys
    · obtain ⟨block, bound, idle⟩ := reserved.evicted_idle key evicted
      right
      constructor
      · simp [slotsOf, bound, phaseOf, idle]
      · simp [evicted, phaseOf]
    · left
      simp [evicted, slotsOf]
  · intro key member
    obtain ⟨number, found⟩ := Option.isSome_iff_exists.mp
      ((reserved_at_is_some lengths key).mpr member)
    have inNumbers : number ∈ manager.ledger.numbers output.keysToStore :=
      (List.of_mem_zip (assoc_get_mem found)).2
    obtain ⟨lower, upper⟩ := ledger_numbers_fresh inNumbers
    refine ⟨number, by rw [holder, found]; rfl, lower, ?_⟩
    show number < after.ledger.next
    rw [ledger]
    exact upper
  · intro key outside
    rw [holder, reserved_at_eq_none lengths outside]
    rfl
  · show manager.ledger.next ≤ after.ledger.next
    rw [ledger]
    exact Nat.le_add_right _ _
  · show (fun number => number ∈ after.ledger.filled) = _
    rw [ledger]
    rfl
  · exact claims
  · intro claim member
    have entry := Multiset.mem_coe.mp (Multiset.mem_of_le addedEntries member)
    refine ⟨(List.of_mem_zip entry).1, ?_⟩
    rw [holder, reserved_at_mem lengths reserved.distinct entry]
    rfl
  · refine Multiset.nodup_of_le (Multiset.map_le_map addedEntries) ?_
    rw [Multiset.map_coe, Multiset.coe_nodup, List.map_fst_zip (by rw [lengths])]
    exact reserved.distinct
  · intro key isArmed
    rcases armed key isArmed with old | ⟨member, none⟩
    · exact .inl old
    · exact .inr ⟨member, by simp [none]⟩

omit [LawfulCachePolicy P] [CachePolicy P] in
theorem queue_claims (manager : TieringOffloadingManager P) (tierIdx : Nat)
    (reqContext : ReqContext) (output : PrepareStoreOutput)
    (aligned : ∀ tierPending entry, manager.pendingLoadSubmissions.get? tierIdx =
      some tierPending → tierPending.get? reqContext.reqId = some entry →
        entry.reservations.length = entry.keys.length) :
    pendingClaims (manager.queuePromotion tierIdx reqContext output) =
      pendingClaims manager +
        (output.keysToStore.zip (manager.ledger.numbers output.keysToStore) :
          Multiset (OffloadKey × Nat)) := by
  unfold pendingClaims TieringOffloadingManager.queuePromotion
  simp only
  generalize tier_eq : (manager.pendingLoadSubmissions.get? tierIdx).getD OrderedMap.empty =
    tierPending
  generalize entry_eq : (tierPending.get? reqContext.reqId).getD ⟨reqContext, [], [], []⟩ = entry
  have entryAligned : entry.reservations.length = entry.keys.length := by
    subst entry_eq tier_eq
    cases tierFound : manager.pendingLoadSubmissions.get? tierIdx with
    | none => simp
    | some found =>
        cases entryFound : found.get? reqContext.reqId with
        | none => simp [entryFound]
        | some old => simpa [entryFound] using aligned found old tierFound entryFound
  let grown : PendingPromotion := { entry with
    keys := entry.keys ++ output.keysToStore
    blockIds := entry.blockIds ++ output.storeSpec
    reservations := entry.reservations ++ manager.ledger.numbers output.keysToStore }
  have grownClaims : entryClaims grown = entryClaims entry +
      (output.keysToStore.zip (manager.ledger.numbers output.keysToStore) :
        Multiset (OffloadKey × Nat)) := by
    simp only [entryClaims, grown]
    rw [List.zip_append entryAligned.symm, Multiset.coe_add]
  have tierTotal := map_total_set tierPending reqContext.reqId grown entryClaims
  have oldEntry : (tierPending.get? reqContext.reqId).elim 0 entryClaims = entryClaims entry := by
    subst entry_eq
    cases tierPending.get? reqContext.reqId <;> rfl
  rw [oldEntry, grownClaims, ← add_assoc, add_right_comm] at tierTotal
  have tierAfter := add_right_cancel tierTotal
  have outerTotal := map_total_set manager.pendingLoadSubmissions tierIdx
    (tierPending.set reqContext.reqId grown) fun pending => mapTotal pending entryClaims
  have oldTier : (manager.pendingLoadSubmissions.get? tierIdx).elim 0
      (fun pending => mapTotal pending entryClaims) = mapTotal tierPending entryClaims := by
    subst tier_eq
    cases manager.pendingLoadSubmissions.get? tierIdx <;> simp
  simp only [oldTier, tierAfter] at outerTotal
  rw [← add_assoc, add_right_comm] at outerTotal
  exact add_right_cancel outerTotal

omit [LawfulCachePolicy P] [CachePolicy P] in
theorem queue_aligned {manager : TieringOffloadingManager P} (aligned : PendingAligned manager)
    (tierIdx : Nat) (reqContext : ReqContext) (output : PrepareStoreOutput) :
    PendingAligned (manager.queuePromotion tierIdx reqContext output) := by
  intro otherTier tierPending reqId entry tierFound entryFound
  simp only [TieringOffloadingManager.queuePromotion, OrderedMap.get_set] at tierFound
  split at tierFound
  · cases tierFound
    rw [OrderedMap.get_set] at entryFound
    split at entryFound
    · cases entryFound
      simp only [List.length_append, ledger_numbers_length]
      congr 1
      cases known : manager.pendingLoadSubmissions.get? tierIdx with
      | none => simp
      | some found =>
          cases entryKnown : found.get? reqContext.reqId with
          | none => simp [entryKnown]
          | some old =>
              simpa [entryKnown] using aligned tierIdx found _ old known entryKnown
    · cases known : manager.pendingLoadSubmissions.get? tierIdx with
      | none => simp [known] at entryFound
      | some found =>
          rw [known, Option.getD_some] at entryFound
          exact aligned tierIdx found reqId entry known entryFound
  · exact aligned otherTier tierPending reqId entry tierFound entryFound

theorem prepare_store_spec {primary after : CPUOffloadingManager P} {keys : List OffloadKey}
    {bypassThreshold : Bool} {output : Option PrepareStoreOutput} (distinct : keys.Nodup)
    (prepared : primary.prepareStore keys bypassThreshold = .ok (output, after))
    (pool : PoolInv primary) : PoolInv after ∧ StoreOutcome primary keys output after := by
  obtain ⟨expected, state, ok, afterPool, outcome⟩ :=
    prepare_store_ok pool keys bypassThreshold distinct
  rw [prepared] at ok
  cases ok
  exact ⟨afterPool, outcome⟩

theorem refused_kept {manager : TieringOffloadingManager P} {keys : List OffloadKey}
    {bypassThreshold : Bool} {primary : CPUOffloadingManager P} (distinct : keys.Nodup)
    (refused : manager.primaryTier.prepareStore keys bypassThreshold = .ok (none, primary)) :
    Kept manager (manager.withPrimary primary) :=
  kept_of_phases ⟨rfl, rfl, rfl, rfl, rfl, rfl, rfl⟩
    (fun pool => (prepare_store_spec distinct refused pool).1)
    (fun pool key => congrArg phaseOf (congrFun (prepare_store_spec distinct refused pool).2 key))

theorem initiate_promotion_kept {manager after : TieringOffloadingManager P} {tierIdx : Nat}
    {key : OffloadKey} {reqContext : ReqContext} {promoted : Bool}
    (initiated : manager.initiatePromotion tierIdx key reqContext = .ok (promoted, after)) :
    Kept manager after := by
  unfold TieringOffloadingManager.initiatePromotion at initiated
  obtain ⟨⟨output, primary⟩, prepared, done⟩ := bind_eq_ok.mp initiated
  have distinct : [key].Nodup := List.nodup_singleton key
  cases output with
  | none =>
      cases done
      exact refused_kept distinct prepared
  | some output =>
      cases done
      refine ⟨fun inv => ?_, fun pool => (prepare_store_spec distinct prepared pool).1, rfl, rfl⟩
      obtain ⟨pool, reserved⟩ := prepare_store_spec distinct prepared inv.pool
      have queueClaims := queue_claims (manager.withPrimary primary) tierIdx reqContext output
        fun tierPending entry => inv.pending_aligned tierIdx tierPending reqContext.reqId entry
      let queued := (manager.withPrimary primary).queuePromotion tierIdx reqContext output
      have slots : (slotsOf queued).Inv ∧ (slotsOf manager).Grows (slotsOf queued) := by
        refine reserve_slots inv reserved rfl _ ?_ le_rfl fun key armed => .inl armed
        show jobClaims manager + pendingClaims _ = jobClaims manager + pendingClaims manager + _
        rw [queueClaims, ← add_assoc]
        rfl
      exact ⟨⟨pool, slots.1, inv.job_ids, inv.jobs_aligned,
        queue_aligned inv.pending_aligned tierIdx reqContext output⟩, slots.2⟩

theorem filter_tier_hit_kept (manager : TieringOffloadingManager P) (key : OffloadKey)
    (startTime : Rat) (result : LookupResult) :
    Kept manager (manager.filterTierHit key startTime result).2 := by
  unfold TieringOffloadingManager.filterTierHit
  split
  · split
    · exact kept_refl manager
    · split
      · exact kept_refl manager
      · exact kept_of_same ⟨rfl, rfl, rfl, rfl, rfl, rfl, rfl⟩ rfl
  · exact kept_refl manager

theorem lookup_tiers_kept (tiers : List (Nat × TierInfo)) {manager after : TieringOffloadingManager P}
    {key : OffloadKey} {reqContext : ReqContext} {excludeTierIdx : Option Nat} {anyRetry : Bool}
    {result : LookupResult}
    (looked : manager.lookupTiers key reqContext excludeTierIdx anyRetry tiers =
      .ok (result, after)) : Kept manager after := by
  induction tiers generalizing manager anyRetry with
  | nil =>
      cases looked
      exact kept_refl _
  | cons tier rest ih =>
      unfold TieringOffloadingManager.lookupTiers at looked
      split at looked
      · exact ih looked
      · have filtered := filter_tier_hit_kept manager.next key manager.answer.now
          manager.answer.lookup
        generalize manager.next.filterTierHit key manager.answer.now manager.answer.lookup =
          answered at looked filtered
        obtain ⟨answer, middle⟩ := answered
        have middleKept := kept_trans (next_kept manager) filtered
        cases answer with
        | hit =>
            obtain ⟨⟨promoted, last⟩, initiated, done⟩ := bind_eq_ok.mp looked
            cases done
            exact kept_trans middleKept (initiate_promotion_kept initiated)
        | miss => exact kept_trans middleKept (ih looked)
        | hitPending => exact kept_trans middleKept (ih looked)
        | retry => exact kept_trans middleKept (ih looked)

theorem lookup_kept {manager after : TieringOffloadingManager P} {key : OffloadKey} {reqContext : ReqContext} {excludeTierIdx : Option Nat}
    {result : LookupResult}
    (looked : manager.lookup key reqContext excludeTierIdx = .ok (result, after)) :
    Kept manager after := by
  obtain ⟨polled, pollOk, looked⟩ := bind_eq_ok.mp looked
  obtain ⟨⟨primaryHit, primary⟩, primaryOk, looked⟩ := bind_eq_ok.mp looked
  obtain ⟨same, _⟩ := lookup_spec primaryOk
  have primaryKept := kept_trans (maybe_process_kept pollOk) (same_pool_kept same)
  cases primaryHit with
  | hit =>
      cases looked
      exact primaryKept
  | hitPending =>
      cases looked
      exact primaryKept
  | miss => exact kept_trans primaryKept (lookup_tiers_kept _ looked)
  | retry => exact kept_trans primaryKept (lookup_tiers_kept _ looked)

omit [LawfulCachePolicy P] [CachePolicy P] in
/-- A new job takes the counter as its id and adds its claims. -/
theorem register_job_spec {manager : TieringOffloadingManager P} {job : TransferJob}
    (tierIdx : Nat)
    (jobIds : ∀ jobId job, manager.jobs.get? jobId = some job → jobId < manager.jobIdCounter)
    (jobsAligned : ∀ jobId job, manager.jobs.get? jobId = some job →
      job.transferJob.isPromotion = true →
        job.transferJob.reservations.length = job.transferJob.keys.length)
    (jobId : job.jobId = manager.jobIdCounter)
    (aligned : job.isPromotion = true → job.reservations.length = job.keys.length) :
    let after := manager.nextJobId.registerJob job tierIdx
    jobClaims after = jobClaims manager + transferClaims ⟨job, tierIdx⟩ ∧
      (∀ jobId job, after.jobs.get? jobId = some job → jobId < after.jobIdCounter) ∧
      ∀ jobId job, after.jobs.get? jobId = some job → job.transferJob.isPromotion = true →
        job.transferJob.reservations.length = job.transferJob.keys.length := by
  have fresh : manager.jobs.get? job.jobId = none := by
    cases found : manager.jobs.get? job.jobId with
    | none => rfl
    | some old => exact absurd (jobIds _ old found) (jobId ▸ lt_irrefl _)
  refine ⟨?_, ?_, ?_⟩
  · have added := map_total_set manager.jobs job.jobId ⟨job, tierIdx⟩ transferClaims
    rw [fresh, Option.elim_none, add_zero] at added
    exact added
  · intro otherId other found
    show otherId < manager.jobIdCounter + 1
    simp only [TieringOffloadingManager.registerJob, OrderedMap.get_set] at found
    split at found
    · rename_i same
      rw [same, jobId]
      exact Nat.lt_succ_self _
    · exact Nat.lt_succ_of_lt (jobIds otherId other found)
  · intro otherId other found
    simp only [TieringOffloadingManager.registerJob, OrderedMap.get_set] at found
    split at found
    · cases found
      exact aligned
    · exact jobsAligned otherId other found

theorem create_store_job_kept {manager after : TieringOffloadingManager P}
    {keys : List OffloadKey} {reqContext : ReqContext} {tierIdx : Nat} {job : TransferJob}
    (created : manager.createStoreJob keys reqContext tierIdx = .ok (job, after)) :
    Kept manager after := by
  obtain ⟨⟨blockIds, primary⟩, pinned, done⟩ := bind_eq_ok.mp created
  cases done
  refine kept_trans (pin_kept pinned) ⟨fun inv => ?_, id, rfl, rfl⟩
  have jobId : (⟨manager.jobIdCounter, keys, blockIds, false, reqContext, []⟩ :
      TransferJob).jobId = manager.jobIdCounter := rfl
  obtain ⟨claims, jobIds, jobsAligned⟩ :=
    register_job_spec tierIdx inv.job_ids inv.jobs_aligned jobId (by simp)
  have sameClaims : ∀ after : TieringOffloadingManager P,
      jobClaims after = jobClaims (manager.withPrimary primary) + 0 →
      after.primaryTier = primary → after.ledger = manager.ledger →
      after.pendingLoadSubmissions = manager.pendingLoadSubmissions →
      after.storePendingDeadline = manager.storePendingDeadline →
      slotsOf after = slotsOf (manager.withPrimary primary) := by
    intro after jobs primaryEq ledger pending deadlines
    unfold slotsOf
    rw [jobs, add_zero, pendingClaims, primaryEq, ledger, pending, deadlines]
    rfl
  have slots := sameClaims _ claims rfl rfl rfl rfl
  exact ⟨⟨inv.pool, slots ▸ inv.slots, jobIds, jobsAligned, inv.pending_aligned⟩,
    slots ▸ grows_refl _⟩

theorem cascade_kept (tiers : List Nat) {manager after : TieringOffloadingManager P}
    {keys : List OffloadKey} {reqContext : ReqContext}
    (cascaded : manager.cascade keys reqContext tiers = .ok after) : Kept manager after := by
  induction tiers generalizing manager with
  | nil =>
      cases cascaded
      exact kept_refl _
  | cons tierIdx rest ih =>
      obtain ⟨⟨job, middle⟩, created, later⟩ := bind_eq_ok.mp cascaded
      exact kept_trans (create_store_job_kept created) (kept_trans (call_kept _ _ _) (ih later))

theorem ready_keys_kept (keys : List OffloadKey) {manager after : TieringOffloadingManager P}
    {ready : List OffloadKey} (found : manager.readyKeys keys = .ok (ready, after)) :
    Kept manager after := by
  induction keys generalizing manager ready with
  | nil =>
      cases found
      exact kept_refl _
  | cons key rest ih =>
      obtain ⟨⟨result, primary⟩, looked, found⟩ := bind_eq_ok.mp found
      obtain ⟨⟨others, last⟩, later, done⟩ := bind_eq_ok.mp found
      cases done
      exact kept_trans (same_pool_kept (lookup_spec looked).1) (ih later)

theorem cascade_existing_kept {manager after : TieringOffloadingManager P}
    {keys : List OffloadKey} {reqContext : ReqContext} {tiers : List Nat}
    (cascaded : manager.cascadeExistingBlocksToRequestLevelTiers keys reqContext tiers =
      .ok after) : Kept manager after := by
  obtain ⟨⟨ready, middle⟩, found, cascaded⟩ := bind_eq_ok.mp cascaded
  have readyKept := ready_keys_kept keys found
  by_cases empty : ready = []
  · simp only [empty, if_true] at cascaded
    cases cascaded
    exact readyKept
  · simp only [empty, if_false] at cascaded
    exact kept_trans readyKept (cascade_kept _ cascaded)

end Reserving

section Requests

/-- The invariant does not read the request states. -/
theorem set_request_inv {manager : TieringOffloadingManager P} (inv : TieringInv manager)
    (reqState : OrderedMap ReqId RequestState) :
    TieringInv { manager with reqState := reqState } :=
  ⟨inv.pool, inv.slots, inv.job_ids, inv.jobs_aligned, inv.pending_aligned⟩

theorem fill_ledger_inv {manager : TieringOffloadingManager P} (inv : TieringInv manager)
    (numbers : List Nat) : TieringInv (manager.fillLedger numbers) := by
  refine ⟨inv.pool, ⟨fun key filled => ?_, inv.slots.claim_holds, inv.slots.claims_distinct,
    inv.slots.armed_reserved, inv.slots.numbered⟩, inv.job_ids, inv.jobs_aligned,
    inv.pending_aligned⟩
  obtain ⟨number, holds, settled⟩ := inv.slots.sound key filled
  exact ⟨number, holds, List.mem_append_right _ settled⟩

omit [LawfulCachePolicy P] in
theorem arm_claims (manager : TieringOffloadingManager P) (reqContext : ReqContext)
    (state : RequestState) (keys : List OffloadKey) :
    (slotsOf (manager.armStorePends reqContext state keys)).claims = (slotsOf manager).claims := by
  unfold TieringOffloadingManager.armStorePends
  split <;> rfl

theorem contains_set_all {κ ν : Type} [DecidableEq κ] (keys : List κ) (value : ν)
    (map : OrderedMap κ ν) (key : κ) :
    (keys.foldl (fun map key => map.set key value) map).contains key = true ↔
      map.contains key = true ∨ key ∈ keys := by
  induction keys generalizing map with
  | nil => simp
  | cons first rest ih =>
      rw [List.foldl_cons, ih, List.mem_cons]
      unfold OrderedMap.contains
      rw [OrderedMap.get_set]
      by_cases same : key = first <;> simp [same]

/-- A store's new reservations carry fresh numbers that no promotion claims. -/
theorem arm_store_spec {manager : TieringOffloadingManager P} (inv : TieringInv manager)
    {keys : List OffloadKey} {output : PrepareStoreOutput} {primary : CPUOffloadingManager P}
    (reserved : StoreReserved manager.primaryTier keys output primary) (pool : PoolInv primary)
    (reqContext : ReqContext) (state : RequestState) :
    let after := (manager.withPrimary primary).armStorePends reqContext state output.keysToStore
    TieringInv after ∧ (slotsOf manager).Grows (slotsOf after) ∧
      ∀ key ∈ output.keysToStore, ∃ number, (slotsOf after).holder key = some number ∧
        number < (slotsOf after).next ∧ (key, number) ∉ (slotsOf after).claims := by
  intro after
  have ledger : after.ledger = manager.ledger.reserve output.keysToStore := by
    simp only [after, TieringOffloadingManager.armStorePends]
    split <;> rfl
  have primaryEq : after.primaryTier = primary := by
    simp only [after, TieringOffloadingManager.armStorePends]
    split <;> rfl
  have jobs : after.jobs = manager.jobs := by
    simp only [after, TieringOffloadingManager.armStorePends]
    split <;> rfl
  have pending : after.pendingLoadSubmissions = manager.pendingLoadSubmissions := by
    simp only [after, TieringOffloadingManager.armStorePends]
    split <;> rfl
  have counter : manager.jobIdCounter ≤ after.jobIdCounter := by
    simp only [after, TieringOffloadingManager.armStorePends]
    split
    · exact le_rfl
    · exact Nat.le_succ _
  have claims : (slotsOf after).claims = (slotsOf manager).claims := arm_claims _ _ _ _
  have armed : ∀ key, (slotsOf after).armed key → (slotsOf manager).armed key ∨
      key ∈ output.keysToStore := by
    intro key isArmed
    have contained : after.storePendingDeadline.contains key = true := isArmed
    simp only [after, TieringOffloadingManager.armStorePends] at contained
    split at contained
    · exact .inl contained
    · exact (contains_set_all _ _ _ _).mp contained
  obtain ⟨slots, grows⟩ := reserve_slots inv (primaryEq ▸ reserved) ledger 0
    (by rw [claims, add_zero]) (Multiset.zero_le _)
    (fun key isArmed => (armed key isArmed).imp_right fun member => ⟨member, rfl⟩)
  refine ⟨⟨primaryEq ▸ pool, slots, ?_, ?_, ?_⟩, grows, ?_⟩
  · intro jobId job found
    rw [jobs] at found
    exact (inv.job_ids jobId job found).trans_le counter
  · rw [jobs]
    exact inv.jobs_aligned
  · rw [PendingAligned, pending]
    exact inv.pending_aligned
  · intro key member
    have lengths := ledger_numbers_length manager.ledger output.keysToStore
    obtain ⟨number, found⟩ := Option.isSome_iff_exists.mp
      ((reserved_at_is_some lengths key).mpr member)
    have inNumbers : number ∈ manager.ledger.numbers output.keysToStore :=
      (List.of_mem_zip (assoc_get_mem found)).2
    obtain ⟨lower, upper⟩ := ledger_numbers_fresh inNumbers
    refine ⟨number, ?_, ?_, ?_⟩
    · show after.ledger.current.get? key = some number
      rw [ledger, ledger_reserve_get _ reserved.distinct, found]
      rfl
    · show number < after.ledger.next
      rw [ledger]
      exact upper
    · rw [claims]
      intro claim
      have known := inv.slots.numbered key number (inv.slots.claim_holds _ claim).2
      exact absurd known (not_lt.mpr lower)

/-- The new keys of a store carry numbers that no promotion claims. -/
def Numbered (after : TieringOffloadingManager P) (output : Option PrepareStoreOutput) : Prop :=
  ∀ out, output = some out → ∀ key ∈ out.keysToStore, ∃ number,
    (slotsOf after).holder key = some number ∧ number < (slotsOf after).next ∧
      (key, number) ∉ (slotsOf after).claims

/-- What an accepted or refused `prepare_store` leaves behind. -/
structure StorePrepared (manager : TieringOffloadingManager P) (reqId : ReqId)
    (output : Option PrepareStoreOutput) (after : TieringOffloadingManager P) : Prop where
  inv : TieringInv manager →
    TieringInv after ∧ (slotsOf manager).Grows (slotsOf after) ∧ Numbered after output
  pool : PoolInv manager.primaryTier → PoolInv after.primaryTier
  world : worldOf after = worldOf manager
  refused : output = none → after.reqState = manager.reqState
  accepted : ∀ out, output = some out → ∃ state, manager.reqState.get? reqId = some state ∧
    after.reqState = if out.keysToStore = [] then manager.reqState
      else manager.reqState.set reqId
        { state with pendingPrimaryStores := state.pendingPrimaryStores + 1 }

omit [LawfulCachePolicy P] [CachePolicy P] in
theorem arm_frame (manager : TieringOffloadingManager P) (reqContext : ReqContext)
    (state : RequestState) (keys : List OffloadKey) :
    (manager.armStorePends reqContext state keys).reqState =
        manager.reqState.set reqContext.reqId
          { state with pendingPrimaryStores := state.pendingPrimaryStores + 1 } ∧
      worldOf (manager.armStorePends reqContext state keys) = worldOf manager := by
  unfold TieringOffloadingManager.armStorePends
  split <;> exact ⟨rfl, rfl⟩

/-- With no new keys the accepted store only moves the primary tier. -/
theorem empty_store_kept {manager : TieringOffloadingManager P} {keys : List OffloadKey}
    {output : PrepareStoreOutput} {primary : CPUOffloadingManager P}
    (reserved : PoolInv manager.primaryTier → PoolInv primary ∧
      StoreReserved manager.primaryTier keys output primary)
    (empty : output.keysToStore = []) : Kept manager (manager.withPrimary primary) := by
  refine ⟨fun inv => ?_, fun pool => (reserved pool).1, rfl, rfl⟩
  obtain ⟨pool, spec⟩ := reserved inv.pool
  change StoreReserved _ _ _ (manager.withPrimary primary).primaryTier at spec
  have ledger : manager.ledger = manager.ledger.reserve output.keysToStore := by
    rw [empty]
    rfl
  have sameClaims : (slotsOf (manager.withPrimary primary)).claims =
      (slotsOf manager).claims + 0 := (add_zero _).symm
  obtain ⟨slots, grows⟩ := reserve_slots inv spec ledger 0 sameClaims (Multiset.zero_le _)
    (fun key armed => .inl armed)
  exact ⟨⟨pool, slots, inv.job_ids, inv.jobs_aligned, inv.pending_aligned⟩, grows⟩

/-- The manager after the reservations of an accepted store, before cascading. -/
def storedManager (polled : TieringOffloadingManager P) (primary : CPUOffloadingManager P)
    (reqContext : ReqContext) (state : RequestState) (keysToStore : List OffloadKey) :
    TieringOffloadingManager P :=
  if keysToStore = [] then polled.withPrimary primary
  else (polled.withPrimary primary).armStorePends reqContext state keysToStore

theorem stored_manager_prepared {polled : TieringOffloadingManager P}
    {primary : CPUOffloadingManager P} {keys : List OffloadKey} {out : PrepareStoreOutput}
    {reqContext : ReqContext} {state : RequestState}
    (spec : PoolInv polled.primaryTier →
      PoolInv primary ∧ StoreReserved polled.primaryTier keys out primary)
    (known : polled.reqState.get? reqContext.reqId = some state) :
    StorePrepared polled reqContext.reqId (some out)
      (storedManager polled primary reqContext state out.keysToStore) := by
  unfold storedManager
  by_cases empty : out.keysToStore = []
  · have kept := empty_store_kept spec empty
    rw [if_pos empty]
    refine ⟨fun inv => ?_, kept.pool, kept.world, by simp, ?_⟩
    · obtain ⟨afterInv, grows⟩ := kept.inv inv
      refine ⟨afterInv, grows, ?_⟩
      intro accepted same key member
      obtain rfl := Option.some.inj same
      simp [empty] at member
    · intro accepted same
      obtain rfl := Option.some.inj same
      exact ⟨state, known, by rw [if_pos empty]; exact kept.reqState⟩
  · obtain ⟨reqState, world⟩ :=
      arm_frame (polled.withPrimary primary) reqContext state out.keysToStore
    rw [if_neg empty]
    refine ⟨fun inv => ?_, fun pool => ?_, world, by simp, ?_⟩
    · obtain ⟨pool, reserved⟩ := spec inv.pool
      obtain ⟨afterInv, grows, numbered⟩ := arm_store_spec inv reserved pool reqContext state
      refine ⟨afterInv, grows, ?_⟩
      intro accepted same
      obtain rfl := Option.some.inj same
      exact numbered
    · unfold TieringOffloadingManager.armStorePends
      split <;> exact (spec pool).1
    · intro accepted same
      obtain rfl := Option.some.inj same
      exact ⟨state, known, by rw [if_neg empty]; exact reqState⟩

omit [LawfulCachePolicy P] in
theorem cascade_ledger (tiers : List Nat) {manager after : TieringOffloadingManager P}
    {keys : List OffloadKey} {reqContext : ReqContext}
    (cascaded : manager.cascade keys reqContext tiers = .ok after) :
    after.ledger = manager.ledger := by
  induction tiers generalizing manager with
  | nil =>
      cases cascaded
      rfl
  | cons tierIdx rest ih =>
      obtain ⟨⟨job, middle⟩, created, later⟩ := bind_eq_ok.mp cascaded
      obtain ⟨_, _, done⟩ := bind_eq_ok.mp created
      cases done
      have step := ih later
      exact step

omit [LawfulCachePolicy P] in
theorem ready_keys_ledger (keys : List OffloadKey) {manager after : TieringOffloadingManager P}
    {ready : List OffloadKey} (found : manager.readyKeys keys = .ok (ready, after)) :
    after.ledger = manager.ledger := by
  induction keys generalizing manager ready with
  | nil =>
      cases found
      rfl
  | cons key rest ih =>
      obtain ⟨_, _, found⟩ := bind_eq_ok.mp found
      obtain ⟨⟨others, last⟩, later, done⟩ := bind_eq_ok.mp found
      cases done
      have step := ih later
      exact step

omit [LawfulCachePolicy P] in
theorem cascade_existing_ledger {manager after : TieringOffloadingManager P}
    {keys : List OffloadKey} {reqContext : ReqContext} {tiers : List Nat}
    (cascaded : manager.cascadeExistingBlocksToRequestLevelTiers keys reqContext tiers =
      .ok after) : after.ledger = manager.ledger := by
  obtain ⟨⟨ready, middle⟩, found, cascaded⟩ := bind_eq_ok.mp cascaded
  have readySame := ready_keys_ledger keys found
  by_cases empty : ready = []
  · simp only [empty, if_true] at cascaded
    cases cascaded
    exact readySame
  · simp only [empty, if_false] at cascaded
    exact (cascade_ledger _ cascaded).trans readySame

/-- Later steps that reserve nothing keep what the store left behind. -/
theorem prepared_then {first second third : TieringOffloadingManager P} {reqId : ReqId}
    {output : Option PrepareStoreOutput} (prepared : StorePrepared first reqId output second)
    (kept : Kept second third) (ledger : third.ledger = second.ledger) :
    StorePrepared first reqId output third := by
  refine ⟨fun inv => ?_, kept.pool ∘ prepared.pool, kept.world.trans prepared.world, ?_, ?_⟩
  · obtain ⟨secondInv, firstGrows, numbered⟩ := prepared.inv inv
    obtain ⟨thirdInv, secondGrows⟩ := kept.inv secondInv
    refine ⟨thirdInv, grows_trans firstGrows secondGrows, ?_⟩
    intro out accepted key member
    obtain ⟨number, holds, bound, unclaimed⟩ := numbered out accepted key member
    refine ⟨number, ?_, bound.trans_le secondGrows.next_le,
      unclaimed_grows secondGrows bound unclaimed⟩
    show third.ledger.current.get? key = some number
    rw [ledger]
    exact holds
  · exact fun refused => kept.reqState.trans (prepared.refused refused)
  · intro out accepted
    obtain ⟨state, known, reqState⟩ := prepared.accepted out accepted
    exact ⟨state, known, kept.reqState.trans reqState⟩

theorem kept_then_prepared {first second third : TieringOffloadingManager P} {reqId : ReqId}
    {output : Option PrepareStoreOutput} (kept : Kept first second)
    (prepared : StorePrepared second reqId output third) :
    StorePrepared first reqId output third := by
  refine ⟨fun inv => ?_, prepared.pool ∘ kept.pool, prepared.world.trans kept.world, ?_, ?_⟩
  · obtain ⟨secondInv, firstGrows⟩ := kept.inv inv
    obtain ⟨thirdInv, secondGrows, numbered⟩ := prepared.inv secondInv
    exact ⟨thirdInv, grows_trans firstGrows secondGrows, numbered⟩
  · exact fun refused => (prepared.refused refused).trans kept.reqState
  · intro out accepted
    obtain ⟨state, known, reqState⟩ := prepared.accepted out accepted
    rw [kept.reqState] at known reqState
    exact ⟨state, known, reqState⟩

theorem prepare_store_prepared {manager after : TieringOffloadingManager P}
    {keys : List OffloadKey} {reqContext : ReqContext} {output : Option PrepareStoreOutput}
    (distinct : keys.Nodup)
    (prepared : manager.prepareStore keys reqContext = .ok (output, after)) :
    StorePrepared manager reqContext.reqId output after := by
  obtain ⟨polled, pollOk, prepared⟩ := bind_eq_ok.mp prepared
  obtain ⟨⟨result, primary⟩, primaryOk, prepared⟩ := bind_eq_ok.mp prepared
  apply kept_then_prepared (maybe_process_kept pollOk)
  cases result with
  | none =>
      cases prepared
      have kept := refused_kept distinct primaryOk
      refine ⟨fun inv => ?_, kept.pool, kept.world, fun _ => kept.reqState, by simp⟩
      obtain ⟨afterInv, grows⟩ := kept.inv inv
      exact ⟨afterInv, grows, by simp [Numbered]⟩
  | some out =>
      obtain ⟨state, stateOk, prepared⟩ := bind_eq_ok.mp prepared
      have stored := stored_manager_prepared
        (fun pool => prepare_store_spec distinct primaryOk pool) (py_item_eq_ok.mp stateOk)
      change (if _ then _ else _) = _ at prepared
      split at prepared
      · cases prepared
        exact stored
      · obtain ⟨last, cascaded, done⟩ := bind_eq_ok.mp prepared
        cases done
        exact prepared_then stored (cascade_existing_kept cascaded)
          (cascade_existing_ledger cascaded)

/-- Only request states, logs, clocks and flags differ. -/
structure SameCore (manager after : TieringOffloadingManager P) : Prop where
  primary : after.primaryTier = manager.primaryTier
  ledger : after.ledger = manager.ledger
  jobs : after.jobs = manager.jobs
  pending : after.pendingLoadSubmissions = manager.pendingLoadSubmissions
  deadlines : after.storePendingDeadline = manager.storePendingDeadline
  counter : after.jobIdCounter = manager.jobIdCounter
  world : worldOf after = worldOf manager

omit [LawfulCachePolicy P] [CachePolicy P] in
theorem same_core_trans {first second third : TieringOffloadingManager P}
    (left : SameCore first second) (right : SameCore second third) : SameCore first third :=
  ⟨right.primary.trans left.primary, right.ledger.trans left.ledger, right.jobs.trans left.jobs,
    right.pending.trans left.pending, right.deadlines.trans left.deadlines,
    right.counter.trans left.counter, right.world.trans left.world⟩

omit [LawfulCachePolicy P] in
theorem same_core_slots {manager after : TieringOffloadingManager P}
    (same : SameCore manager after) : slotsOf after = slotsOf manager := by
  unfold slotsOf jobClaims pendingClaims
  rw [same.primary, same.ledger, same.jobs, same.pending, same.deadlines]

theorem same_core_inv {manager after : TieringOffloadingManager P}
    (same : SameCore manager after) (inv : TieringInv manager) : TieringInv after := by
  refine ⟨same.primary ▸ inv.pool, same_core_slots same ▸ inv.slots, ?_, ?_, ?_⟩
  · rw [same.jobs, same.counter]
    exact inv.job_ids
  · rw [same.jobs]
    exact inv.jobs_aligned
  · rw [PendingAligned, same.pending]
    exact inv.pending_aligned

omit [LawfulCachePolicy P] [CachePolicy P] in
theorem forward_finished_core (manager : TieringOffloadingManager P) (reqContext : ReqContext)
    (excludeTierIdx : Option Nat) :
    SameCore manager (manager.forwardRequestFinished reqContext excludeTierIdx) ∧
      (manager.forwardRequestFinished reqContext excludeTierIdx).reqState = manager.reqState := by
  unfold TieringOffloadingManager.forwardRequestFinished
  induction List.range manager.secondaryTiers.length generalizing manager with
  | nil => exact ⟨⟨rfl, rfl, rfl, rfl, rfl, rfl, rfl⟩, rfl⟩
  | cons tierIdx rest ih =>
      rw [List.foldl_cons]
      split
      · exact ih manager
      · obtain ⟨same, reqState⟩ := ih (manager.call tierIdx (.onRequestFinished reqContext))
        have called : SameCore manager (manager.call tierIdx (.onRequestFinished reqContext)) :=
          ⟨rfl, rfl, rfl, rfl, rfl, rfl, rfl⟩
        exact ⟨same_core_trans called same, reqState⟩

omit [LawfulCachePolicy P] [CachePolicy P] in
/-- A request is forgotten once it is finished with no pending store. -/
theorem finalize_spec {manager after : TieringOffloadingManager P} {reqId : ReqId}
    {excludeTierIdx : Option Nat}
    (finalized : manager.maybeFinalizeRequest reqId excludeTierIdx = .ok after) :
    SameCore manager after ∧ ∃ state, manager.reqState.get? reqId = some state ∧
      after.reqState = if state.isFinished = true ∧ state.pendingPrimaryStores = 0 then
        manager.reqState.erase reqId else manager.reqState := by
  obtain ⟨state, known, finalized⟩ := bind_eq_ok.mp finalized
  have found := py_item_eq_ok.mp known
  split at finalized
  · rename_i active
    cases finalized
    refine ⟨⟨rfl, rfl, rfl, rfl, rfl, rfl, rfl⟩, state, found, ?_⟩
    rw [if_neg]
    rintro ⟨finished, noStores⟩
    rcases active with running | stores
    · rw [finished] at running
      cases running
    · exact stores noStores
  · rename_i inactive
    rw [not_or, not_not, Bool.not_eq_false] at inactive
    cases finalized
    obtain ⟨same, _⟩ := forward_finished_core manager state.reqContext excludeTierIdx
    refine ⟨same_core_trans same ⟨rfl, rfl, rfl, rfl, rfl, rfl, rfl⟩, state, found, ?_⟩
    rw [if_pos inactive]

/-- The request accounting of one completed store: the count drops by one and
the request goes if it was finished and this was its last store. -/
def settledRequests (reqState : OrderedMap ReqId RequestState) (reqId : ReqId)
    (state : RequestState) : OrderedMap ReqId RequestState :=
  let lowered := reqState.set reqId
    { state with pendingPrimaryStores := state.pendingPrimaryStores - 1 }
  if state.isFinished = true ∧ state.pendingPrimaryStores - 1 = 0 then lowered.erase reqId
  else lowered

omit [LawfulCachePolicy P] [CachePolicy P] in
theorem settle_request_spec {manager after : TieringOffloadingManager P} {reqId : ReqId}
    (settled : manager.settleRequest reqId = .ok after) :
    SameCore manager after ∧ ∃ state, manager.reqState.get? reqId = some state ∧
      0 < state.pendingPrimaryStores ∧
      after.reqState = settledRequests manager.reqState reqId state := by
  obtain ⟨state, known, settled⟩ := bind_eq_ok.mp settled
  obtain ⟨_, positive, settled⟩ := bind_eq_ok.mp settled
  obtain ⟨same, lowered, loweredFound, reqState⟩ := finalize_spec settled
  have lowered_eq : lowered = { state with
      pendingPrimaryStores := state.pendingPrimaryStores - 1 } := by
    simpa [TieringOffloadingManager.setRequest] using loweredFound.symm
  subst lowered_eq
  have counted : SameCore manager (manager.setRequest reqId
      { state with pendingPrimaryStores := state.pendingPrimaryStores - 1 }) :=
    ⟨rfl, rfl, rfl, rfl, rfl, rfl, rfl⟩
  exact ⟨same_core_trans counted same, state, py_item_eq_ok.mp known,
    py_assert_eq_ok.mp positive, reqState⟩

omit [LawfulCachePolicy P] [CachePolicy P] in
theorem settle_request_ok {manager : TieringOffloadingManager P} {reqId : ReqId}
    {state : RequestState} (found : manager.reqState.get? reqId = some state)
    (positive : 0 < state.pendingPrimaryStores) :
    ∃ after, manager.settleRequest reqId = .ok after := by
  simp only [TieringOffloadingManager.settleRequest, found, py_item_some, ok_bind,
    py_assert_of positive, TieringOffloadingManager.maybeFinalizeRequest,
    TieringOffloadingManager.setRequest, OrderedMap.get_set_self]
  split
  · exact ⟨_, rfl⟩
  · exact ⟨_, rfl⟩

/-- A store that completes with every pending key still its own. -/
theorem written_inv {manager written : TieringOffloadingManager P} (inv : TieringInv manager)
    {keys : List OffloadKey} {success : Bool}
    (own : ∀ key ∈ keys, (slotsOf manager).phase key = .reserved →
      ∃ number, (slotsOf manager).holder key = some number ∧
        (key, number) ∉ (slotsOf manager).claims ∧
        (success = true → (slotsOf manager).settled number))
    (completed : manager.completeWrite keys success = .ok written) :
    TieringInv (written.disarmStorePends keys) ∧
      (slotsOf manager).Grows (slotsOf (written.disarmStorePends keys)) := by
  obtain ⟨primary, rfl, spec⟩ := complete_write_ok completed
  obtain ⟨pool, get⟩ := spec inv.pool
  let after := (manager.withPrimary primary).disarmStorePends keys
  have phases : ∀ key, (slotsOf after).phase key =
      phaseOf ((if success = true then published manager.primaryTier.get keys
        else discarded manager.primaryTier.get keys) key) := fun key =>
    congrArg phaseOf (congrFun get key)
  have settles : Settles (slotsOf manager) (slotsOf after)
      (fun key => success = true ∧ key ∈ keys) (fun key => key ∈ keys) := by
    constructor
    · intro key reserved done
      rw [phases, if_pos done.1, phase_published]
      simp [show phaseOf (manager.primaryTier.get key) = .reserved from reserved, done.2]
    · intro key reserved notDone member
      have failed : ¬success = true := fun success => notDone ⟨success, member⟩
      rw [phases, if_neg failed, phase_discarded]
      simp [show phaseOf (manager.primaryTier.get key) = .reserved from reserved, member]
    · intro key untouched
      rw [phases]
      have same : phaseOf (manager.primaryTier.get key) ≠ .reserved ∨ key ∉ keys :=
        untouched.imp_right And.right
      split
      · rw [phase_published, if_neg]
        · rfl
        · exact fun both => same.elim (· both.1) (· both.2)
      · rw [phase_discarded, if_neg]
        · rfl
        · exact fun both => same.elim (· both.1) (· both.2)
    · rfl
    · rfl
    · exact fun _ settled => settled
    · exact le_rfl
    · intro key armed
      exact ((contains_erase_all keys manager.storePendingDeadline key).mp armed).1
  have settled := settles_inv inv.slots settles
    (by
      intro key reserved touched
      have member : key ∈ keys := touched.elim And.right id
      obtain ⟨number, holds, unclaimed, _⟩ := own key member reserved
      refine ⟨fun claimed => unclaimed (claimed_of_holder inv.slots holds claimed), ?_⟩
      intro armed
      exact ((contains_erase_all keys manager.storePendingDeadline key).mp armed).2 member)
    (by
      intro key reserved done
      obtain ⟨number, holds, _, settled⟩ := own key done.2 reserved
      exact ⟨number, holds, settled done.1⟩)
  exact ⟨⟨pool, settled.1, inv.job_ids, inv.jobs_aligned, inv.pending_aligned⟩, settled.2⟩

/-- Every pending key of a completing store is under its own reservation, which
is settled if the transfer succeeded. -/
def OwnsPending (manager : TieringOffloadingManager P) (keys : List OffloadKey)
    (success : Bool) : Prop :=
  ∀ key ∈ keys, (slotsOf manager).phase key = .reserved →
    ∃ number, (slotsOf manager).holder key = some number ∧
      (key, number) ∉ (slotsOf manager).claims ∧
      (success = true → (slotsOf manager).settled number)

/-- What a `complete_store` that returns leaves behind. -/
structure StoreCompleted (manager : TieringOffloadingManager P) (keys : List OffloadKey)
    (reqId : ReqId) (success : Bool) (after : TieringOffloadingManager P) : Prop where
  inv : TieringInv manager → OwnsPending manager keys success →
    TieringInv after ∧ (slotsOf manager).Grows (slotsOf after)
  pool : PoolInv manager.primaryTier → PoolInv after.primaryTier
  world : worldOf after = worldOf manager
  requests : ∃ state, manager.reqState.get? reqId = some state ∧
    0 < state.pendingPrimaryStores ∧
    after.reqState = settledRequests manager.reqState reqId state

theorem complete_store_completed {manager after : TieringOffloadingManager P}
    {keys : List OffloadKey} {reqContext : ReqContext} {success : Bool}
    (completed : manager.completeStore keys reqContext success = .ok after) :
    StoreCompleted manager keys reqContext.reqId success after := by
  obtain ⟨written, writeOk, completed⟩ := bind_eq_ok.mp completed
  have writtenInv := fun inv (own : OwnsPending manager keys success) =>
    written_inv inv own writeOk
  obtain ⟨primary, rfl, spec⟩ := complete_write_ok writeOk
  generalize disarmed_eq : (manager.withPrimary primary).disarmStorePends keys = disarmed
    at completed writtenInv
  have disarmedReq : disarmed.reqState = manager.reqState := disarmed_eq ▸ rfl
  have disarmedWorld : worldOf disarmed = worldOf manager := disarmed_eq ▸ rfl
  have disarmedPool : PoolInv manager.primaryTier → PoolInv disarmed.primaryTier :=
    fun pool => disarmed_eq ▸ (spec pool).1
  have finish : ∀ cascaded : TieringOffloadingManager P, Kept disarmed cascaded →
      cascaded.settleRequest reqContext.reqId = .ok after →
        StoreCompleted manager keys reqContext.reqId success after := by
    intro cascaded kept settled
    obtain ⟨same, state, found, positive, reqState⟩ := settle_request_spec settled
    rw [kept.reqState, disarmedReq] at found reqState
    refine ⟨fun inv own => ?_, fun pool => same.primary ▸ kept.pool (disarmedPool pool),
      same.world.trans (kept.world.trans disarmedWorld), state, found, positive, reqState⟩
    obtain ⟨disarmedInv, grows⟩ := writtenInv inv own
    obtain ⟨cascadedInv, cascadedGrows⟩ := kept.inv disarmedInv
    exact ⟨same_core_inv same cascadedInv,
      same_core_slots same ▸ grows_trans grows cascadedGrows⟩
  cases success with
  | false => exact finish disarmed (kept_refl disarmed) completed
  | true =>
      obtain ⟨cascaded, cascadeOk, settled⟩ := bind_eq_ok.mp completed
      exact finish cascaded (cascade_kept _ cascadeOk) settled

omit [LawfulCachePolicy P] [CachePolicy P] in
theorem ask_policies_core (tiers : List Nat) (manager : TieringOffloadingManager P)
    (excludeTierIdx : Option Nat) :
    SameCore manager (manager.askPolicies excludeTierIdx tiers).2 ∧
      (manager.askPolicies excludeTierIdx tiers).2.reqState = manager.reqState := by
  induction tiers generalizing manager with
  | nil => exact ⟨⟨rfl, rfl, rfl, rfl, rfl, rfl, rfl⟩, rfl⟩
  | cons tierIdx rest ih =>
      unfold TieringOffloadingManager.askPolicies
      split
      · exact ih manager
      · obtain ⟨same, reqState⟩ := ih manager.next
        have asked : SameCore manager manager.next := ⟨rfl, rfl, rfl, rfl, rfl, rfl, rfl⟩
        exact ⟨same_core_trans asked same, reqState⟩

omit [LawfulCachePolicy P] [CachePolicy P] in
/-- A new request starts with no pending store. -/
theorem new_request_spec (manager : TieringOffloadingManager P) (reqContext : ReqContext)
    (excludeTierIdx : Option Nat) :
    SameCore manager (manager.onNewRequest reqContext excludeTierIdx).2 ∧
      ∃ state, state.pendingPrimaryStores = 0 ∧ state.isFinished = false ∧
        (manager.onNewRequest reqContext excludeTierIdx).2.reqState =
          manager.reqState.set reqContext.reqId state := by
  unfold TieringOffloadingManager.onNewRequest
  obtain ⟨same, reqState⟩ := ask_policies_core (List.range manager.secondaryTiers.length)
    manager excludeTierIdx
  generalize manager.askPolicies excludeTierIdx (List.range manager.secondaryTiers.length) =
    asked at same reqState
  obtain ⟨chosen, after⟩ := asked
  refine ⟨⟨same.primary, same.ledger, same.jobs, same.pending, same.deadlines, same.counter,
    same.world⟩, { reqContext := reqContext, requestLevelTiers := chosen }, rfl, rfl, ?_⟩
  rw [← reqState]
  rfl

/-- The states after a request is reported finished. -/
def finishedRequests (reqState : OrderedMap ReqId RequestState) (reqId : ReqId)
    (state : RequestState) : OrderedMap ReqId RequestState :=
  let finished := reqState.set reqId { state with isFinished := true }
  if state.pendingPrimaryStores = 0 then finished.erase reqId else finished

omit [LawfulCachePolicy P] [CachePolicy P] in
theorem request_finished_spec {manager after : TieringOffloadingManager P}
    {reqContext : ReqContext} {excludeTierIdx : Option Nat}
    (finished : manager.onRequestFinished reqContext excludeTierIdx = .ok after) :
    SameCore manager after ∧ ∃ state, manager.reqState.get? reqContext.reqId = some state ∧
      after.reqState = finishedRequests manager.reqState reqContext.reqId state := by
  obtain ⟨state, known, finished⟩ := bind_eq_ok.mp finished
  obtain ⟨same, marked, markedFound, reqState⟩ := finalize_spec finished
  have marked_eq : marked = { state with isFinished := true } := by
    simpa [TieringOffloadingManager.setRequest] using markedFound.symm
  subst marked_eq
  have counted : SameCore manager (manager.setRequest reqContext.reqId
      { state with isFinished := true }) := ⟨rfl, rfl, rfl, rfl, rfl, rfl, rfl⟩
  refine ⟨same_core_trans counted same, state, py_item_eq_ok.mp known, ?_⟩
  rw [reqState, finishedRequests]
  simp [TieringOffloadingManager.setRequest]

end Requests

section ScheduleEnd

omit [LawfulCachePolicy P] [CachePolicy P] in
/-- Submitting queued batches turns their claims into claims of jobs. -/
theorem submit_all_spec (queued : List (Nat × PendingPromotion))
    {manager : TieringOffloadingManager P}
    (jobIds : ∀ jobId job, manager.jobs.get? jobId = some job → jobId < manager.jobIdCounter)
    (jobsAligned : ∀ jobId job, manager.jobs.get? jobId = some job →
      job.transferJob.isPromotion = true →
        job.transferJob.reservations.length = job.transferJob.keys.length)
    (aligned : ∀ entry ∈ queued, entry.2.reservations.length = entry.2.keys.length) :
    let after := queued.foldl
      (fun manager entry => manager.submitPromotion entry.1 entry.2) manager
    jobClaims after = jobClaims manager + (queued.map fun entry => entryClaims entry.2).sum ∧
      (∀ jobId job, after.jobs.get? jobId = some job → jobId < after.jobIdCounter) ∧
      (∀ jobId job, after.jobs.get? jobId = some job → job.transferJob.isPromotion = true →
        job.transferJob.reservations.length = job.transferJob.keys.length) ∧
      after.ledger = manager.ledger ∧
      after.storePendingDeadline = manager.storePendingDeadline := by
  induction queued generalizing manager with
  | nil => exact ⟨by simp, jobIds, jobsAligned, rfl, rfl⟩
  | cons entry rest ih =>
      have headAligned := aligned entry List.mem_cons_self
      have jobId : (⟨manager.jobIdCounter, entry.2.keys, entry.2.blockIds, true,
          entry.2.reqContext, entry.2.reservations⟩ : TransferJob).jobId =
            manager.jobIdCounter := rfl
      obtain ⟨claims, idsAfter, alignedAfter⟩ :=
        register_job_spec entry.1 jobIds jobsAligned jobId (fun _ => headAligned)
      obtain ⟨later, laterIds, laterAligned, frame⟩ :=
        @ih (manager.submitPromotion entry.1 entry.2) idsAfter alignedAfter
          (fun other member => aligned other (List.mem_cons_of_mem _ member))
      refine ⟨?_, laterIds, laterAligned, frame⟩
      rw [List.foldl_cons]
      refine later.trans ?_
      have head : jobClaims (manager.submitPromotion entry.1 entry.2) =
          jobClaims manager + entryClaims entry.2 := claims
      rw [head, List.map_cons, List.sum_cons, add_assoc]

omit [LawfulCachePolicy P] [CachePolicy P] in
theorem queued_claims (manager : TieringOffloadingManager P) :
    (manager.queuedPromotions.map fun entry => entryClaims entry.2).sum =
      pendingClaims manager := by
  rw [pendingClaims, map_total_eq_sum, TieringOffloadingManager.queuedPromotions,
    OrderedMap.values, List.map_map, List.flatMap, List.map_flatten, List.sum_flatten,
    List.map_map, List.map_map]
  congr 1
  apply List.map_congr_left
  intro tier _
  simp only [Function.comp_apply, map_total_eq_sum, List.map_map]
  rfl

omit [LawfulCachePolicy P] [CachePolicy P] in
theorem queued_aligned {manager : TieringOffloadingManager P} (aligned : PendingAligned manager) :
    ∀ entry ∈ manager.queuedPromotions, entry.2.reservations.length = entry.2.keys.length := by
  intro entry member
  obtain ⟨tier, tierMember, inTier⟩ := List.mem_flatMap.mp member
  obtain ⟨batch, batchMember, rfl⟩ := List.mem_map.mp inTier
  obtain ⟨pair, pairMember, rfl⟩ := List.mem_map.mp batchMember
  exact aligned tier.1 tier.2 pair.1 pair.2
    ((manager.pendingLoadSubmissions.get_eq_some_iff tier.1 tier.2).mpr tierMember)
    ((tier.2.get_eq_some_iff pair.1 pair.2).mpr pairMember)

omit [LawfulCachePolicy P] in
theorem slots_of_parts {manager after : TieringOffloadingManager P}
    (primary : after.primaryTier = manager.primaryTier) (ledger : after.ledger = manager.ledger)
    (claims : jobClaims after + pendingClaims after = jobClaims manager + pendingClaims manager)
    (deadlines : after.storePendingDeadline = manager.storePendingDeadline) :
    slotsOf after = slotsOf manager := by
  unfold slotsOf
  rw [primary, ledger, claims, deadlines]

omit [LawfulCachePolicy P] [CachePolicy P] in
theorem submit_all_frame (queued : List (Nat × PendingPromotion))
    (manager : TieringOffloadingManager P) :
    let after := queued.foldl
      (fun manager entry => manager.submitPromotion entry.1 entry.2) manager
    after.primaryTier = manager.primaryTier ∧ after.reqState = manager.reqState ∧
      worldOf after = worldOf manager := by
  induction queued generalizing manager with
  | nil => exact ⟨rfl, rfl, rfl⟩
  | cons entry rest ih => exact ih (manager.submitPromotion entry.1 entry.2)

theorem flush_spec {manager : TieringOffloadingManager P} (inv : TieringInv manager) :
    TieringInv manager.flushPendingPromotions ∧
      slotsOf manager.flushPendingPromotions = slotsOf manager := by
  obtain ⟨claims, jobIds, jobsAligned, ledger, deadlines⟩ :=
    submit_all_spec manager.queuedPromotions inv.job_ids inv.jobs_aligned
      (queued_aligned inv.pending_aligned)
  obtain ⟨primary, _, _⟩ := submit_all_frame manager.queuedPromotions manager
  have slots : slotsOf manager.flushPendingPromotions = slotsOf manager := by
    refine slots_of_parts primary ledger ?_ deadlines
    have empty : pendingClaims manager.flushPendingPromotions = 0 := map_total_empty _
    rw [empty, add_zero, ← queued_claims]
    exact claims
  refine ⟨⟨?_, slots ▸ inv.slots, jobIds, jobsAligned, ?_⟩, slots⟩
  · rw [show manager.flushPendingPromotions.primaryTier = manager.primaryTier from primary]
    exact inv.pool
  · intro tierIdx tierPending reqId entry found
    simp [TieringOffloadingManager.flushPendingPromotions] at found

theorem flush_kept (manager : TieringOffloadingManager P) :
    Kept manager manager.flushPendingPromotions := by
  obtain ⟨primary, reqState, world⟩ := submit_all_frame manager.queuedPromotions manager
  refine ⟨fun inv => ?_, fun pool => ?_, reqState, world⟩
  · obtain ⟨after, slots⟩ := flush_spec inv
    exact ⟨after, slots ▸ grows_refl _⟩
  · rw [show manager.flushPendingPromotions.primaryTier = manager.primaryTier from primary]
    exact pool

/-- The request states after calls of the tiers, which open requests under their
own ids and report requests of some ids finished. -/
inductive Served (foreign closing : ReqId → Prop) :
    OrderedMap ReqId RequestState → OrderedMap ReqId RequestState → Prop where
  | refl (reqState : OrderedMap ReqId RequestState) : Served foreign closing reqState reqState
  | opened {first second : OrderedMap ReqId RequestState} {reqId : ReqId} {state : RequestState}
      (before : Served foreign closing first second) (own : foreign reqId)
      (empty : state.pendingPrimaryStores = 0) :
      Served foreign closing first (second.set reqId state)
  | finished {first second : OrderedMap ReqId RequestState} {reqId : ReqId}
      {state : RequestState} (before : Served foreign closing first second)
      (closes : closing reqId) (known : second.get? reqId = some state) :
      Served foreign closing first (finishedRequests second reqId state)

theorem served_trans {foreign closing : ReqId → Prop}
    {first second third : OrderedMap ReqId RequestState}
    (left : Served foreign closing first second) (right : Served foreign closing second third) :
    Served foreign closing first third := by
  induction right with
  | refl => exact left
  | opened _ own empty ih => exact .opened ih own empty
  | finished _ closes known ih => exact .finished ih closes known

/-- Requests that a call opens are the tier's own. -/
def ParentCall.Opens (foreign : ReqId → Prop) : ParentCall → Prop
  | .onNewRequest reqContext => foreign reqContext.reqId
  | _ => True

def ParentCall.Closes (closing : ReqId → Prop) : ParentCall → Prop
  | .onRequestFinished reqContext => closing reqContext.reqId
  | _ => True

/-- What serving the tiers leaves behind. -/
structure ServedBy (foreign closing : ReqId → Prop) (manager after : TieringOffloadingManager P) :
    Prop where
  inv : TieringInv manager → TieringInv after ∧ (slotsOf manager).Grows (slotsOf after)
  pool : PoolInv manager.primaryTier → PoolInv after.primaryTier
  world : worldOf after = worldOf manager
  requests : Served foreign closing manager.reqState after.reqState

theorem served_by_kept {foreign closing : ReqId → Prop}
    {manager after : TieringOffloadingManager P}
    (kept : Kept manager after) : ServedBy foreign closing manager after :=
  ⟨kept.inv, kept.pool, kept.world, kept.reqState ▸ .refl _⟩

theorem served_by_core {foreign closing : ReqId → Prop}
    {manager after : TieringOffloadingManager P} (same : SameCore manager after)
    (requests : Served foreign closing manager.reqState after.reqState) :
    ServedBy foreign closing manager after :=
  ⟨fun inv => ⟨same_core_inv same inv, same_core_slots same ▸ grows_refl _⟩,
    fun pool => same.primary ▸ pool, same.world, requests⟩

theorem served_by_trans {foreign closing : ReqId → Prop}
    {first second third : TieringOffloadingManager P} (left : ServedBy foreign closing first second)
    (right : ServedBy foreign closing second third) : ServedBy foreign closing first third := by
  refine ⟨fun inv => ?_, right.pool ∘ left.pool, right.world.trans left.world,
    served_trans left.requests right.requests⟩
  obtain ⟨middle, leftGrows⟩ := left.inv inv
  obtain ⟨last, rightGrows⟩ := right.inv middle
  exact ⟨last, grows_trans leftGrows rightGrows⟩

theorem serve_call_by {foreign closing : ReqId → Prop}
    {manager after : TieringOffloadingManager P} {tierIdx : Nat} {parentCall : ParentCall}
    (opens : ParentCall.Opens foreign parentCall)
    (closes : ParentCall.Closes closing parentCall)
    (served : manager.serveCall tierIdx parentCall = .ok after) :
    ServedBy foreign closing manager after := by
  cases parentCall with
  | onNewRequest reqContext =>
      cases served
      obtain ⟨same, state, empty, _, reqState⟩ :=
        new_request_spec manager reqContext (some tierIdx)
      refine served_by_core same ?_
      rw [reqState]
      exact .opened (.refl _) opens empty
  | lookup key reqContext =>
      obtain ⟨⟨result, last⟩, looked, done⟩ := bind_eq_ok.mp served
      cases done
      exact served_by_kept (lookup_kept looked)
  | createStoreJob keys reqContext =>
      obtain ⟨⟨job, last⟩, created, done⟩ := bind_eq_ok.mp served
      cases done
      exact served_by_kept (create_store_job_kept created)
  | onRequestFinished reqContext =>
      obtain ⟨same, state, known, reqState⟩ := request_finished_spec served
      refine served_by_core same ?_
      rw [reqState]
      exact .finished (.refl _) closes known

theorem serve_calls_by {foreign closing : ReqId → Prop} (calls : List ParentCall)
    {manager after : TieringOffloadingManager P} {tierIdx : Nat}
    (opens : ∀ parentCall ∈ calls, ParentCall.Opens foreign parentCall)
    (closes : ∀ parentCall ∈ calls, ParentCall.Closes closing parentCall)
    (served : manager.serveCalls tierIdx calls = .ok after) :
    ServedBy foreign closing manager after := by
  induction calls generalizing manager with
  | nil =>
      cases served
      exact served_by_kept (kept_refl _)
  | cons parentCall rest ih =>
      obtain ⟨middle, first, later⟩ := bind_eq_ok.mp served
      exact served_by_trans (serve_call_by (opens parentCall List.mem_cons_self)
        (closes parentCall List.mem_cons_self) first)
        (ih (fun call member => opens call (List.mem_cons_of_mem _ member))
          (fun call member => closes call (List.mem_cons_of_mem _ member)) later)

/-- The tiers of a stream of answers only open requests under their own ids. -/
def AnswersOpen (foreign : ReqId → Prop) (answers : Nat → TierAnswer) : Prop :=
  ∀ index, ∀ parentCall ∈ (answers index).served, ParentCall.Opens foreign parentCall

/-- The tiers of a stream of answers only report requests of these ids finished. -/
def AnswersClose (closing : ReqId → Prop) (answers : Nat → TierAnswer) : Prop :=
  ∀ index, ∀ parentCall ∈ (answers index).served, ParentCall.Closes closing parentCall

theorem answers_close_any (answers : Nat → TierAnswer) : AnswersClose (fun _ => True) answers := by
  intro index parentCall member
  cases parentCall <;> exact trivial

omit [LawfulCachePolicy P] [CachePolicy P] in
theorem answers_of_world {manager after : TieringOffloadingManager P}
    (world : worldOf after = worldOf manager) : after.answers = manager.answers :=
  congrArg (fun world => world.2.1) world

theorem serve_external_by {foreign closing : ReqId → Prop} (tiers : List Nat)
    {manager after : TieringOffloadingManager P}
    (opens : AnswersOpen foreign manager.answers)
    (closes : AnswersClose closing manager.answers)
    (served : manager.serveExternalRequests tiers = .ok after) :
    ServedBy foreign closing manager after := by
  induction tiers generalizing manager with
  | nil =>
      cases served
      exact served_by_kept (kept_refl _)
  | cons tierIdx rest ih =>
      obtain ⟨middle, first, later⟩ := bind_eq_ok.mp served
      have head : ServedBy foreign closing manager middle :=
        served_by_trans (served_by_kept (next_kept manager)) (serve_calls_by _ (opens _) (closes _) first)
      exact served_by_trans head (ih (answers_of_world head.world ▸ opens)
        (answers_of_world head.world ▸ closes) later)

theorem schedule_end_by {foreign closing : ReqId → Prop}
    {manager after : TieringOffloadingManager P}
    (opens : AnswersOpen foreign manager.answers)
    (closes : AnswersClose closing manager.answers)
    {context : ScheduleEndContext} (ended : manager.onScheduleEnd context = .ok after) :
    ServedBy foreign closing manager after := by
  obtain ⟨polled, pollOk, ended⟩ := bind_eq_ok.mp ended
  obtain ⟨served, serveOk, done⟩ := bind_eq_ok.mp ended
  cases done
  have polledBy : ServedBy foreign closing manager polled := served_by_kept (maybe_process_kept pollOk)
  have servedBy := served_by_trans polledBy
    (serve_external_by _ (answers_of_world polledBy.world ▸ opens)
      (answers_of_world polledBy.world ▸ closes) serveOk)
  exact served_by_trans servedBy (served_by_kept (kept_trans (set_processed_kept served false)
    (kept_trans (flush_kept _) (call_all_kept _ _))))

theorem drain_kept (manager : TieringOffloadingManager P) :
    Kept manager manager.drainFlushJobIds.2 :=
  kept_of_same ⟨rfl, rfl, rfl, rfl, rfl, rfl, rfl⟩ rfl

end ScheduleEnd

section Reset

theorem new_tiering_inv (params : TieringParams) {primary : CPUOffloadingManager P}
    (pool : PoolInv primary) (vacant : primary.get = fun _ => none)
    (tiers : List TierInfo) (answers : Nat → TierAnswer) :
    TieringInv (TieringOffloadingManager.new params primary tiers answers) := by
  refine ⟨pool, vacant_inv ?_ ?_ ?_ ?_, ?_, ?_, ?_⟩
  · intro key
    show phaseOf (primary.get key) = .vacant
    rw [vacant]
    rfl
  · simp [slotsOf, jobClaims, pendingClaims, TieringOffloadingManager.new]
  · simp [slotsOf, TieringOffloadingManager.new, OrderedMap.contains]
  · simp [slotsOf, TieringOffloadingManager.new]
  · simp [TieringOffloadingManager.new]
  · simp [TieringOffloadingManager.new]
  · simp [PendingAligned, TieringOffloadingManager.new]

omit [LawfulCachePolicy P] [CachePolicy P] in
theorem reset_requests_core (manager : TieringOffloadingManager P) :
    SameCore manager manager.resetRequests := by
  have forwarded : ∀ (states : List RequestState) (manager : TieringOffloadingManager P),
      SameCore manager (states.foldl
        (fun manager state =>
          if state.isFinished then manager.forwardRequestFinished state.reqContext none
          else manager) manager) := by
    intro states
    induction states with
    | nil => exact fun _ => ⟨rfl, rfl, rfl, rfl, rfl, rfl, rfl⟩
    | cons state rest ih =>
        intro manager
        rw [List.foldl_cons]
        split
        · exact same_core_trans (forward_finished_core manager state.reqContext none).1 (ih _)
        · exact ih manager
  have same := forwarded manager.reqState.values manager
  exact ⟨same.primary, same.ledger, same.jobs, same.pending, same.deadlines, same.counter,
    same.world⟩

omit [LawfulCachePolicy P] [CachePolicy P] in
theorem reset_requests_zero (manager : TieringOffloadingManager P) {reqId : ReqId}
    {state : RequestState} (found : manager.resetRequests.reqState.get? reqId = some state) :
    state.pendingPrimaryStores = 0 := by
  have zero : ∀ (entries : List (ReqId × RequestState)) (states : OrderedMap ReqId RequestState),
      (∀ reqId state, states.get? reqId = some state → state.pendingPrimaryStores = 0) →
      ∀ reqId state, (entries.foldl
        (fun states entry => states.set entry.1 { entry.2 with pendingPrimaryStores := 0 })
          states).get? reqId = some state → state.pendingPrimaryStores = 0 := by
    intro entries
    induction entries with
    | nil => exact fun _ before => before
    | cons entry rest ih =>
        intro states before
        apply ih
        intro otherId other otherFound
        rw [OrderedMap.get_set] at otherFound
        split at otherFound
        · cases otherFound
          rfl
        · exact before otherId other otherFound
  exact zero _ OrderedMap.empty (by simp) reqId state found

theorem reset_cache_reset {manager after : TieringOffloadingManager P}
    (reset : manager.resetCache = .ok after) :
    (TieringInv manager → TieringInv after) ∧ PoolInv after.primaryTier ∧
      worldOf after = worldOf manager ∧
      ∀ reqId state, after.reqState.get? reqId = some state → state.pendingPrimaryStores = 0 := by
  obtain ⟨polled, pollOk, reset⟩ := bind_eq_ok.mp reset
  obtain ⟨_, idle, done⟩ := bind_eq_ok.mp reset
  have noJobs : polled.jobs.entries = [] := by simpa using py_assert_eq_ok.mp idle
  have polledKept := kept_trans (call_all_kept manager .drainJobs) (process_kept pollOk)
  generalize cleared_eq : ({ polled.withStorePends OrderedMap.empty OrderedMap.empty with
    pendingLoadSubmissions := OrderedMap.empty } : TieringOffloadingManager P) = cleared at done
  have same := reset_requests_core cleared
  obtain ⟨pool, vacant⟩ := reset_cache_spec cleared.resetRequests.primaryTier
  cases done
  have jobsEmpty : cleared.resetRequests.jobs = OrderedMap.empty := by
    rw [same.jobs, ← cleared_eq]
    exact OrderedMap.ext_entries noJobs
  have pendingEmpty : cleared.resetRequests.pendingLoadSubmissions = OrderedMap.empty := by
    rw [same.pending, ← cleared_eq]
  have deadlinesEmpty : cleared.resetRequests.storePendingDeadline = OrderedMap.empty := by
    rw [same.deadlines, ← cleared_eq]
    rfl
  have ledger : cleared.resetRequests.ledger = polled.ledger := by
    rw [same.ledger, ← cleared_eq]
    rfl
  refine ⟨fun inv => ⟨pool, vacant_inv ?_ ?_ ?_ ?_, ?_, ?_, ?_⟩, pool, ?_, ?_⟩
  · exact fun key => congrArg phaseOf (congrFun vacant key)
  · show mapTotal cleared.resetRequests.jobs transferClaims +
      mapTotal cleared.resetRequests.pendingLoadSubmissions _ = 0
    rw [jobsEmpty, pendingEmpty, map_total_empty, map_total_empty, add_zero]
  · intro key armed
    change cleared.resetRequests.storePendingDeadline.contains key = true at armed
    rw [deadlinesEmpty] at armed
    simp [OrderedMap.contains] at armed
  · show ∀ key number, cleared.resetRequests.ledger.current.get? key = some number →
      number < cleared.resetRequests.ledger.next
    rw [ledger]
    exact (polledKept.inv inv).1.slots.numbered
  · intro jobId job found
    change cleared.resetRequests.jobs.get? jobId = some job at found
    simp [jobsEmpty] at found
  · intro jobId job found
    change cleared.resetRequests.jobs.get? jobId = some job at found
    simp [jobsEmpty] at found
  · intro tierIdx tierPending reqId entry found
    change cleared.resetRequests.pendingLoadSubmissions.get? tierIdx = some tierPending at found
    simp [pendingEmpty] at found
  · have clearedWorld : worldOf cleared = worldOf polled := by
      rw [← cleared_eq]
      rfl
    exact same.world.trans (clearedWorld.trans polledKept.world)
  · exact fun reqId state found => reset_requests_zero cleared found

end Reset

end KvOffload.TieringOperations
