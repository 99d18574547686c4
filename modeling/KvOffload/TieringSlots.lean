import KvOffload.CpuManagerSpec
import KvOffload.Reservations
import KvOffload.Tiering

/-!
# Tiering manager invariant

The tiering manager seen as slots with reservations: the phase of a key is what
the primary tier answers for it, the claims are the keys of queued and running
promotions, and the armed keys are those with a retraction deadline. Every
operation keeps the invariant; the operations of the GPU side additionally need
the state of their own keys.
-/

namespace KvOffload.TieringSlots

open KvOffload KvOffload.Base KvOffload.PolicyInterface KvOffload.FiniteTotals
open KvOffload.CpuManager KvOffload.CpuPool KvOffload.CpuManagerSpec
open KvOffload.Reservations KvOffload.Tiering

set_option autoImplicit false

def phaseOf : Option BlockStatus → Phase
  | none => .vacant
  | some block => if block.refCnt < 0 then .reserved else .filled

def transferClaims (job : JobMetadata) : Multiset (OffloadKey × Nat) :=
  if job.transferJob.isPromotion then
    (job.transferJob.keys.zip job.transferJob.reservations : Multiset (OffloadKey × Nat))
  else 0

def entryClaims (entry : PendingPromotion) : Multiset (OffloadKey × Nat) :=
  entry.keys.zip entry.reservations

variable {P : Type}

/-- What no operation of the manager changes. -/
def worldOf (manager : TieringOffloadingManager P) :
    List TierInfo × (Nat → TierAnswer) × Rat :=
  (manager.secondaryTiers, manager.answers, manager.storePendingTtlSecs)

def jobClaims (manager : TieringOffloadingManager P) : Multiset (OffloadKey × Nat) :=
  mapTotal manager.jobs transferClaims

def pendingClaims (manager : TieringOffloadingManager P) : Multiset (OffloadKey × Nat) :=
  mapTotal manager.pendingLoadSubmissions fun tierPending => mapTotal tierPending entryClaims

/-- Every queued batch has one reservation for each key. -/
def PendingAligned (manager : TieringOffloadingManager P) : Prop :=
  ∀ tierIdx tierPending reqId entry,
    manager.pendingLoadSubmissions.get? tierIdx = some tierPending →
      tierPending.get? reqId = some entry → entry.reservations.length = entry.keys.length

variable [CachePolicy P]

def slotsOf (manager : TieringOffloadingManager P) : Slots OffloadKey where
  phase key := phaseOf (manager.primaryTier.get key)
  holder := manager.ledger.current.get?
  next := manager.ledger.next
  settled number := number ∈ manager.ledger.filled
  claims := jobClaims manager + pendingClaims manager
  armed key := manager.storePendingDeadline.contains key = true

theorem phase_published (current : OffloadKey → Option BlockStatus) (keys : List OffloadKey)
    (key : OffloadKey) : phaseOf (published current keys key) =
      if phaseOf (current key) = .reserved ∧ key ∈ keys then .filled
      else phaseOf (current key) := by
  cases found : current key with
  | none => simp [published, phaseOf, found]
  | some block =>
      by_cases pending : block.refCnt < 0 <;> by_cases member : key ∈ keys <;>
        simp [published, phaseOf, found, pending, member]

theorem phase_discarded (current : OffloadKey → Option BlockStatus) (keys : List OffloadKey)
    (key : OffloadKey) : phaseOf (discarded current keys key) =
      if phaseOf (current key) = .reserved ∧ key ∈ keys then .vacant
      else phaseOf (current key) := by
  cases found : current key with
  | none => simp [discarded, phaseOf, found]
  | some block =>
      by_cases pending : block.refCnt < 0 <;> by_cases member : key ∈ keys <;>
        simp [discarded, phaseOf, found, pending, member]

variable [LawfulCachePolicy P]

omit [LawfulCachePolicy P] [CachePolicy P] in
theorem phase_recounted {current next : OffloadKey → Option BlockStatus} {key : OffloadKey}
    {block : BlockStatus} {refCnt : Int} (bound : current key = some block)
    (update : ∀ other, next other =
      if other = key then some (block.withRefCnt refCnt) else current other)
    (ready : 0 ≤ block.refCnt) (stillReady : 0 ≤ refCnt) (other : OffloadKey) :
    phaseOf (next other) = phaseOf (current other) := by
  rw [update]
  split
  · rename_i same
    rw [same, bound, phaseOf, phaseOf, with_ref_cnt_ref_cnt, if_neg (by omega),
      if_neg (by omega)]
  · rfl

theorem prepare_load_phases (keys : List OffloadKey) {primary : CPUOffloadingManager P}
    (pool : PoolInv primary) {result : List Nat × CPUOffloadingManager P}
    (loaded : primary.prepareLoad keys = .ok result) :
    PoolInv result.2 ∧ ∀ key, phaseOf (result.2.get key) = phaseOf (primary.get key) := by
  induction keys generalizing primary result with
  | nil =>
      cases loaded
      exact ⟨pool, fun _ => rfl⟩
  | cons key rest ih =>
      have ready := prepare_load_ready (key :: rest) pool loaded key List.mem_cons_self
      obtain ⟨block, bound, nonneg⟩ := ready
      obtain ⟨pinned, pinOk, pinPool, pinGet⟩ := pin_block_ok pool bound nonneg
      simp only [CPUOffloadingManager.prepareLoad, pinOk, ok_bind] at loaded
      obtain ⟨later, laterOk, done⟩ := bind_eq_ok.mp loaded
      cases done
      obtain ⟨laterPool, laterPhases⟩ := ih pinPool laterOk
      exact ⟨laterPool, fun other => (laterPhases other).trans
        (phase_recounted bound pinGet nonneg (by omega) other)⟩

omit [LawfulCachePolicy P] in
theorem unpin_block_held {primary after : CPUOffloadingManager P} {key : OffloadKey}
    (unpinned : primary.unpinBlock key = .ok after) :
    ∃ block, primary.get key = some block ∧ 0 < block.refCnt := by
  unfold CPUOffloadingManager.unpinBlock at unpinned
  cases found : primary.get key with
  | none => simp [found] at unpinned
  | some block =>
      simp only [found] at unpinned
      obtain ⟨_, held, _⟩ := bind_eq_ok.mp unpinned
      exact ⟨block, rfl, py_assert_eq_ok.mp held⟩

theorem complete_load_phases (keys : List OffloadKey) {primary after : CPUOffloadingManager P}
    (pool : PoolInv primary) (completed : primary.completeLoad keys = .ok after) :
    PoolInv after ∧ ∀ key, phaseOf (after.get key) = phaseOf (primary.get key) := by
  induction keys generalizing primary with
  | nil =>
      cases completed
      exact ⟨pool, fun _ => rfl⟩
  | cons key rest ih =>
      simp only [CPUOffloadingManager.completeLoad] at completed
      obtain ⟨lowered, unpinOk, restOk⟩ := bind_eq_ok.mp completed
      obtain ⟨block, bound, held⟩ := unpin_block_held unpinOk
      obtain ⟨unpinned, ok, lowerPool, lowerGet⟩ := unpin_block_ok pool bound held
      rw [unpinOk] at ok
      cases ok
      obtain ⟨laterPool, laterPhases⟩ := ih lowerPool restOk
      exact ⟨laterPool, fun other => (laterPhases other).trans
        (phase_recounted bound lowerGet (by omega) (by omega) other)⟩

structure TieringInv (manager : TieringOffloadingManager P) : Prop where
  pool : PoolInv manager.primaryTier
  slots : (slotsOf manager).Inv
  job_ids : ∀ jobId job, manager.jobs.get? jobId = some job → jobId < manager.jobIdCounter
  jobs_aligned : ∀ jobId job, manager.jobs.get? jobId = some job →
    job.transferJob.isPromotion = true →
      job.transferJob.reservations.length = job.transferJob.keys.length
  pending_aligned : PendingAligned manager

/-- An internal step of the manager: it keeps the invariant and leaves the
request states alone. -/
structure Kept (manager after : TieringOffloadingManager P) : Prop where
  inv : TieringInv manager → TieringInv after ∧ (slotsOf manager).Grows (slotsOf after)
  pool : PoolInv manager.primaryTier → PoolInv after.primaryTier
  reqState : after.reqState = manager.reqState
  world : worldOf after = worldOf manager

theorem kept_refl (manager : TieringOffloadingManager P) : Kept manager manager :=
  ⟨fun inv => ⟨inv, grows_refl _⟩, id, rfl, rfl⟩

theorem kept_trans {first second third : TieringOffloadingManager P}
    (left : Kept first second) (right : Kept second third) : Kept first third := by
  refine ⟨fun inv => ?_, right.pool ∘ left.pool, right.reqState.trans left.reqState,
    right.world.trans left.world⟩
  obtain ⟨middle, leftGrows⟩ := left.inv inv
  obtain ⟨last, rightGrows⟩ := right.inv middle
  exact ⟨last, grows_trans leftGrows rightGrows⟩

/-- The fields the invariant reads beside the primary tier are equal. -/
structure SameBooks (manager after : TieringOffloadingManager P) : Prop where
  ledger : after.ledger = manager.ledger
  jobs : after.jobs = manager.jobs
  pending : after.pendingLoadSubmissions = manager.pendingLoadSubmissions
  deadlines : after.storePendingDeadline = manager.storePendingDeadline
  counter : after.jobIdCounter = manager.jobIdCounter
  reqState : after.reqState = manager.reqState
  world : worldOf after = worldOf manager

omit [LawfulCachePolicy P] in
theorem same_slots {manager after : TieringOffloadingManager P}
    (same : SameBooks manager after)
    (phases : ∀ key, phaseOf (after.primaryTier.get key) =
      phaseOf (manager.primaryTier.get key)) : slotsOf after = slotsOf manager := by
  unfold slotsOf jobClaims pendingClaims
  rw [same.ledger, same.jobs, same.pending, same.deadlines, funext phases]

/-- The primary tier may move without changing what it answers. -/
theorem kept_of_phases {manager after : TieringOffloadingManager P}
    (same : SameBooks manager after)
    (pool : PoolInv manager.primaryTier → PoolInv after.primaryTier)
    (phases : PoolInv manager.primaryTier → ∀ key,
      phaseOf (after.primaryTier.get key) = phaseOf (manager.primaryTier.get key)) :
    Kept manager after := by
  refine ⟨fun inv => ?_, pool, same.reqState, same.world⟩
  have slots := same_slots same (phases inv.pool)
  refine ⟨⟨pool inv.pool, slots ▸ inv.slots, ?_, ?_, ?_⟩, slots ▸ grows_refl _⟩
  · rw [same.jobs, same.counter]
    exact inv.job_ids
  · rw [same.jobs]
    exact inv.jobs_aligned
  · rw [PendingAligned, same.pending]
    exact inv.pending_aligned

theorem kept_of_same {manager after : TieringOffloadingManager P}
    (same : SameBooks manager after) (primary : after.primaryTier = manager.primaryTier) :
    Kept manager after :=
  kept_of_phases same (primary ▸ id) (fun _ key => by rw [primary])

theorem next_kept (manager : TieringOffloadingManager P) : Kept manager manager.next :=
  kept_of_same ⟨rfl, rfl, rfl, rfl, rfl, rfl, rfl⟩ rfl

theorem call_kept (manager : TieringOffloadingManager P) (tierIdx : Nat) (tierCall : TierCall) :
    Kept manager (manager.call tierIdx tierCall) :=
  kept_of_same ⟨rfl, rfl, rfl, rfl, rfl, rfl, rfl⟩ rfl

theorem call_all_kept (manager : TieringOffloadingManager P) (tierCall : TierCall) :
    Kept manager (manager.callAll tierCall) := by
  unfold TieringOffloadingManager.callAll
  induction List.range manager.secondaryTiers.length generalizing manager with
  | nil => exact kept_refl manager
  | cons tierIdx rest ih => exact kept_trans (call_kept manager tierIdx tierCall) (ih _)

theorem suppress_kept (manager : TieringOffloadingManager P) (keys : List OffloadKey) :
    Kept manager (manager.suppressPromotionFailures keys) := by
  unfold TieringOffloadingManager.suppressPromotionFailures
  split
  · exact kept_refl manager
  · exact kept_of_same ⟨rfl, rfl, rfl, rfl, rfl, rfl, rfl⟩ rfl

theorem pin_kept {manager : TieringOffloadingManager P} {keys : List OffloadKey}
    {result : List Nat × CPUOffloadingManager P}
    (loaded : manager.primaryTier.prepareLoad keys = .ok result) :
    Kept manager (manager.withPrimary result.2) :=
  kept_of_phases ⟨rfl, rfl, rfl, rfl, rfl, rfl, rfl⟩
    (fun pool => (prepare_load_phases keys pool loaded).1)
    (fun pool => (prepare_load_phases keys pool loaded).2)

theorem unpin_kept {manager : TieringOffloadingManager P} {keys : List OffloadKey}
    {primary : CPUOffloadingManager P}
    (completed : manager.primaryTier.completeLoad keys = .ok primary) :
    Kept manager (manager.withPrimary primary) :=
  kept_of_phases ⟨rfl, rfl, rfl, rfl, rfl, rfl, rfl⟩
    (fun pool => (complete_load_phases keys pool completed).1)
    (fun pool => (complete_load_phases keys pool completed).2)

theorem same_pool_kept {manager : TieringOffloadingManager P}
    {primary : CPUOffloadingManager P} (same : SamePool manager.primaryTier primary) :
    Kept manager (manager.withPrimary primary) :=
  kept_of_phases ⟨rfl, rfl, rfl, rfl, rfl, rfl, rfl⟩ (same_pool_inv same)
    (fun _ key => congrArg phaseOf (congrFun (same_pool_get same) key))

theorem touch_kept (manager : TieringOffloadingManager P) (keys : List OffloadKey) :
    Kept manager (manager.touch keys) := by
  have primaryKept : Kept manager (manager.withPrimary (manager.primaryTier.touch keys)) :=
    kept_of_phases ⟨rfl, rfl, rfl, rfl, rfl, rfl, rfl⟩
      (fun pool => (touch_ok pool keys).1)
      (fun pool key => congrArg phaseOf (congrFun (touch_ok pool keys).2 key))
  exact kept_trans primaryKept (call_all_kept _ _)

section Claims

omit [LawfulCachePolicy P] [CachePolicy P] in
theorem job_claims_pop (manager : TieringOffloadingManager P) (jobId : JobId) :
    jobClaims (manager.popJob jobId) + (manager.jobs.get? jobId).elim 0 transferClaims =
      jobClaims manager :=
  map_total_erase manager.jobs jobId transferClaims

theorem jobs_erase_get {jobs : OrderedMap JobId JobMetadata} {erased jobId : JobId}
    {job : JobMetadata} (found : (jobs.erase erased).get? jobId = some job) :
    jobs.get? jobId = some job := by
  rw [OrderedMap.get_erase] at found
  split at found
  · cases found
  · exact found

/-- Keys of a transfer are exactly the keys its claims mention. -/
theorem zip_key_claimed {keys : List OffloadKey} {numbers : List Nat}
    (aligned : numbers.length = keys.length) {key : OffloadKey} (member : key ∈ keys) :
    ∃ number, (key, number) ∈ keys.zip numbers := by
  have zipKeys : (keys.zip numbers).map Prod.fst = keys := List.map_fst_zip (by omega)
  rw [← zipKeys] at member
  obtain ⟨entry, entryMember, rfl⟩ := List.mem_map.mp member
  exact ⟨entry.2, entryMember⟩

theorem reservations_of_mem {job : TransferJob} {keys : List OffloadKey} {key : OffloadKey}
    {number : Nat} (entry : (key, number) ∈ job.keys.zip job.reservations)
    (member : key ∈ keys) :
    number ∈ TieringOffloadingManager.reservationsOf job keys :=
  List.mem_map.mpr ⟨(key, number), List.mem_filter.mpr ⟨entry, by simpa using member⟩, rfl⟩

theorem published_nil (current : OffloadKey → Option BlockStatus) :
    published current [] = current := by
  funext key
  cases found : current key <;> simp [published, found]

theorem discarded_nil (current : OffloadKey → Option BlockStatus) :
    discarded current [] = current := by
  funext key
  cases found : current key <;> simp [discarded, found]

/-- A promotion leaves the books and settles its own keys. -/
theorem settle_promotion {manager after : TieringOffloadingManager P} (inv : TieringInv manager)
    {jobId : JobId} {job : JobMetadata} (found : manager.jobs.get? jobId = some job)
    (isPromotion : job.transferJob.isPromotion = true) {stored failed : List OffloadKey}
    (storedKeys : ∀ key ∈ stored, key ∈ job.transferJob.keys)
    (failedKeys : ∀ key ∈ failed, key ∈ job.transferJob.keys)
    (pool : PoolInv after.primaryTier)
    (getAfter : after.primaryTier.get =
      discarded (published manager.primaryTier.get stored) failed)
    (ledger : after.ledger = manager.ledger.fill
      (TieringOffloadingManager.reservationsOf job.transferJob stored))
    (jobs : after.jobs = manager.jobs.erase jobId)
    (pending : after.pendingLoadSubmissions = manager.pendingLoadSubmissions)
    (deadlines : after.storePendingDeadline = manager.storePendingDeadline)
    (counter : after.jobIdCounter = manager.jobIdCounter) :
    TieringInv after ∧ (slotsOf manager).Grows (slotsOf after) := by
  have aligned := inv.jobs_aligned jobId job found isPromotion
  have claims : (slotsOf after).claims + transferClaims job = (slotsOf manager).claims := by
    have popped := job_claims_pop manager jobId
    rw [found, Option.elim_some] at popped
    have samePending : pendingClaims after = pendingClaims manager := by
      rw [pendingClaims, pending, pendingClaims]
    have sameJobs : jobClaims after = jobClaims (manager.popJob jobId) := by
      rw [jobClaims, jobs]
      rfl
    show jobClaims after + pendingClaims after + transferClaims job = _
    rw [sameJobs, samePending, add_right_comm, popped]
    rfl
  have owned : ∀ key ∈ job.transferJob.keys, ∃ number, (key, number) ∈ transferClaims job ∧
      (key, number) ∈ job.transferJob.keys.zip job.transferJob.reservations := by
    intro key member
    obtain ⟨number, entry⟩ := zip_key_claimed aligned member
    exact ⟨number, by simpa [transferClaims, isPromotion] using entry, entry⟩
  have before : ∀ claim ∈ transferClaims job, claim ∈ (slotsOf manager).claims := by
    intro claim member
    rw [← claims]
    exact Multiset.mem_add.mpr (.inr member)
  have phases : ∀ key, (slotsOf after).phase key =
      phaseOf (discarded (published manager.primaryTier.get stored) failed key) := fun key =>
    congrArg phaseOf (congrFun getAfter key)
  have settles : Settles (slotsOf manager) (slotsOf after)
      (fun key => key ∈ stored) (fun key => key ∈ failed) := by
    constructor
    · intro key reserved member
      rw [phases, phase_discarded, phase_published]
      simp [show phaseOf (manager.primaryTier.get key) = .reserved from reserved, member]
    · intro key reserved notStored member
      rw [phases, phase_discarded, phase_published]
      simp [show phaseOf (manager.primaryTier.get key) = .reserved from reserved, notStored,
        member]
    · intro key untouched
      rw [phases, phase_discarded, phase_published]
      rcases untouched with busy | ⟨notStored, notFailed⟩
      · have notReserved : phaseOf (manager.primaryTier.get key) ≠ .reserved := busy
        simp [notReserved, slotsOf]
      · simp [notStored, notFailed, slotsOf]
    · simp only [slotsOf, ledger]
      rfl
    · simp only [slotsOf, ledger]
      rfl
    · intro number settled
      simp only [slotsOf, ledger]
      exact List.mem_append_right _ settled
    · rw [← claims]
      exact Multiset.le_add_right _ _
    · intro key armed
      simpa only [slotsOf, deadlines] using armed
  have settled := settles_inv inv.slots settles
    (by
      intro key _ touched
      have member : key ∈ job.transferJob.keys :=
        touched.elim (storedKeys key) (failedKeys key)
      obtain ⟨number, claim, _⟩ := owned key member
      constructor
      · rintro ⟨other, still⟩
        have distinct := inv.slots.claims_distinct
        rw [← claims, Multiset.map_add, Multiset.nodup_add] at distinct
        exact Multiset.disjoint_left.mp distinct.2.2
          (Multiset.mem_map.mpr ⟨(key, other), still, rfl⟩)
          (Multiset.mem_map.mpr ⟨(key, number), claim, rfl⟩)
      · intro armed
        exact (inv.slots.armed_reserved key (settles.armed_of key armed)).2
          ⟨number, before _ claim⟩)
    (by
      intro key _ member
      obtain ⟨number, claim, entry⟩ := owned key (storedKeys key member)
      refine ⟨number, (inv.slots.claim_holds _ (before _ claim)).2, ?_⟩
      simp only [slotsOf, ledger]
      exact List.mem_append_left _ (reservations_of_mem entry member))
  refine ⟨⟨pool, settled.1, ?_, ?_, ?_⟩, settled.2⟩
  · intro otherId other otherFound
    rw [jobs] at otherFound
    rw [counter]
    exact inv.job_ids otherId other (jobs_erase_get otherFound)
  · intro otherId other otherFound
    rw [jobs] at otherFound
    exact inv.jobs_aligned otherId other (jobs_erase_get otherFound)
  · rw [PendingAligned, pending]
    exact inv.pending_aligned

/-- Forgetting a job only drops claims. -/
theorem pop_job_kept (manager : TieringOffloadingManager P) (jobId : JobId) :
    Kept manager (manager.popJob jobId) := by
  refine ⟨fun inv => ?_, id, rfl, rfl⟩
  have settles : Settles (slotsOf manager) (slotsOf (manager.popJob jobId))
      (fun _ => False) (fun _ => False) := by
    constructor
    · exact fun _ _ never => never.elim
    · exact fun _ _ _ never => never.elim
    · exact fun _ _ => rfl
    · rfl
    · rfl
    · exact fun _ settled => settled
    · show jobClaims (manager.popJob jobId) + pendingClaims manager ≤
        jobClaims manager + pendingClaims manager
      rw [← job_claims_pop manager jobId]
      exact add_le_add_left (Multiset.le_add_right _ _) _
    · exact fun _ armed => armed
  have settled := settles_inv inv.slots settles
    (fun _ _ touched => (touched.elim id id).elim) (fun _ _ never => never.elim)
  refine ⟨⟨inv.pool, settled.1, ?_, ?_, inv.pending_aligned⟩, settled.2⟩
  · exact fun otherId other found => inv.job_ids otherId other (jobs_erase_get found)
  · exact fun otherId other found => inv.jobs_aligned otherId other (jobs_erase_get found)

end Claims

end KvOffload.TieringSlots
