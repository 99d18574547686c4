import KvOffload.PendingBlocks
import KvOffload.PrimaryCalls

/-!
# Who carries a promotion

A key that a promotion has reserved is carried by the job or the queued batch that will
settle it. No operation of the tiering manager loses the carrier of a key that still
waits: a transfer leaves the books only after it has settled all its keys.
-/

namespace KvOffload.CarriedPromotions

open KvOffload KvOffload.Base KvOffload.PolicyInterface KvOffload.CpuManager
open KvOffload.CpuManagerSpec KvOffload.PendingBlocks KvOffload.Tiering
open KvOffload.TieringSlots KvOffload.TieringOperations

set_option autoImplicit false

variable {P : Type}

def InJobs (manager : TieringOffloadingManager P) (key : OffloadKey) : Prop :=
  ∃ jobId job, manager.jobs.get? jobId = some job ∧ job.transferJob.isPromotion = true ∧
    key ∈ job.transferJob.keys

def InQueue (manager : TieringOffloadingManager P) (key : OffloadKey) : Prop :=
  ∃ tierIdx tierPending reqId entry, manager.pendingLoadSubmissions.get? tierIdx =
    some tierPending ∧ tierPending.get? reqId = some entry ∧ key ∈ entry.keys

/-- A running or a queued promotion will settle the key. -/
def Carried (manager : TieringOffloadingManager P) (key : OffloadKey) : Prop :=
  InJobs manager key ∨ InQueue manager key

variable [CachePolicy P] [LawfulCachePolicy P]

structure Sound (manager : TieringOffloadingManager P) : Prop where
  lawful : Lawful manager.primaryTier
  jobs : ∀ jobId job, manager.jobs.get? jobId = some job → jobId < manager.jobIdCounter

/-- The reservation of a key was made by this step. -/
def Fresh (manager after : TieringOffloadingManager P) (key : OffloadKey) : Prop :=
  ∃ number, after.ledger.current.get? key = some number ∧ manager.ledger.next ≤ number ∧
    number < after.ledger.next

/-- What a step does to the keys that wait after it: an old one keeps its reservation and
its carrier, and a new one has a carrier unless the step is a `store`. Only a step that
`queues` changes the queued promotions. -/
structure Carries (store queues : Prop) (manager after : TieringOffloadingManager P) :
    Prop where
  sound : Sound manager → Sound after
  next_le : manager.ledger.next ≤ after.ledger.next
  keys : Sound manager → ∀ key, Pending after.primaryTier key →
    (Pending manager.primaryTier key ∧
      after.ledger.current.get? key = manager.ledger.current.get? key ∧
      (Carried manager key → Carried after key)) ∨
    (Fresh manager after key ∧ (store ∨ Carried after key))
  queue : queues ∨ after.pendingLoadSubmissions = manager.pendingLoadSubmissions

variable {store queues : Prop}

theorem carries_refl (manager : TieringOffloadingManager P) : Carries store queues manager manager :=
  ⟨id, le_rfl, fun _ _ waiting => .inl ⟨waiting, rfl, id⟩, .inr rfl⟩

theorem carries_trans {first second third : TieringOffloadingManager P}
    (left : Carries store queues first second) (right : Carries store queues second third) :
    Carries store queues first third := by
  refine ⟨right.sound ∘ left.sound, left.next_le.trans right.next_le, ?_, ?_⟩
  swap
  · rcases left.queue with queued | first
    · exact .inl queued
    · exact right.queue.imp_right fun second => second.trans first
  intro sound key waiting
  rcases right.keys (left.sound sound) key waiting with ⟨before, same, kept⟩ | ⟨fresh, new⟩
  · rcases left.keys sound key before with ⟨earlier, first, older⟩ | ⟨fresh, new⟩
    · exact .inl ⟨earlier, same.trans first, kept ∘ older⟩
    · obtain ⟨number, holds, lower, upper⟩ := fresh
      refine .inr ⟨⟨number, same.trans holds, lower, upper.trans_le right.next_le⟩, ?_⟩
      exact new.imp_right kept
  · obtain ⟨number, holds, lower, upper⟩ := fresh
    exact .inr ⟨⟨number, holds, left.next_le.trans lower, upper⟩, new⟩

theorem carries_weaken {weaker : Prop} {manager after : TieringOffloadingManager P}
    (imply : queues → weaker) (carries : Carries store queues manager after) :
    Carries store weaker manager after :=
  ⟨carries.sound, carries.next_le, carries.keys, carries.queue.imp_left imply⟩

/-- A step that reserves nothing. -/
theorem carries_of_kept {manager after : TieringOffloadingManager P}
    (sound : Sound manager → Sound after)
    (ledger : after.ledger.next = manager.ledger.next ∧
      after.ledger.current = manager.ledger.current)
    (keys : Sound manager → ∀ key, Pending after.primaryTier key →
      Pending manager.primaryTier key ∧ (Carried manager key → Carried after key))
    (queue : queues ∨ after.pendingLoadSubmissions = manager.pendingLoadSubmissions) :
    Carries store queues manager after := by
  refine ⟨sound, ledger.1.ge, fun known key waiting => .inl ?_, queue⟩
  obtain ⟨before, kept⟩ := keys known key waiting
  exact ⟨before, by rw [ledger.2], kept⟩

/-- The fields that carry the reservations. -/
structure SameCarriers (manager after : TieringOffloadingManager P) : Prop where
  next : after.ledger.next = manager.ledger.next
  current : after.ledger.current = manager.ledger.current
  jobs : after.jobs = manager.jobs
  queue : after.pendingLoadSubmissions = manager.pendingLoadSubmissions
  counter : manager.jobIdCounter ≤ after.jobIdCounter

omit [CachePolicy P] [LawfulCachePolicy P] in
theorem carried_same {manager after : TieringOffloadingManager P}
    (same : SameCarriers manager after) (key : OffloadKey) :
    Carried after key ↔ Carried manager key := by
  unfold Carried InJobs InQueue
  rw [same.jobs, same.queue]

/-- The primary tier moves on, and no new key waits. -/
theorem carries_of_primary {manager after : TieringOffloadingManager P}
    (same : SameCarriers manager after)
    (moved : Lawful manager.primaryTier → Lawful after.primaryTier ∧
      ∀ key, Pending after.primaryTier key → Pending manager.primaryTier key) :
    Carries store queues manager after := by
  apply carries_of_kept
  · intro sound
    refine ⟨(moved sound.lawful).1, fun jobId job found => ?_⟩
    rw [same.jobs] at found
    exact (sound.jobs jobId job found).trans_le same.counter
  · exact ⟨same.next, same.current⟩
  · intro sound key waiting
    exact ⟨(moved sound.lawful).2 key waiting, (carried_same same key).mpr⟩
  · exact .inr same.queue

theorem with_primary_carries {manager : TieringOffloadingManager P}
    {primary : CPUOffloadingManager P}
    (moved : Lawful manager.primaryTier → Lawful primary ∧
      ∀ key, Pending primary key → Pending manager.primaryTier key) :
    Carries store queues manager (manager.withPrimary primary) := by
  have same : SameCarriers manager (manager.withPrimary primary) := ⟨rfl, rfl, rfl, rfl, le_rfl⟩
  exact carries_of_primary same moved

theorem carries_of_same {manager after : TieringOffloadingManager P}
    (same : SameCarriers manager after) (primary : after.primaryTier = manager.primaryTier) :
    Carries store queues manager after := by
  apply carries_of_primary same
  intro lawful
  rw [primary]
  exact ⟨lawful, fun _ => id⟩

section Quiet

theorem next_carries (manager : TieringOffloadingManager P) :
    Carries store queues manager manager.next :=
  carries_of_same ⟨rfl, rfl, rfl, rfl, le_rfl⟩ rfl

theorem call_carries (manager : TieringOffloadingManager P) (tierIdx : Nat)
    (tierCall : TierCall) : Carries store queues manager (manager.call tierIdx tierCall) :=
  carries_of_same ⟨rfl, rfl, rfl, rfl, le_rfl⟩ rfl

theorem call_all_carries (manager : TieringOffloadingManager P) (tierCall : TierCall) :
    Carries store queues manager (manager.callAll tierCall) := by
  unfold TieringOffloadingManager.callAll
  induction List.range manager.secondaryTiers.length generalizing manager with
  | nil => exact carries_refl manager
  | cons tierIdx rest ih => exact carries_trans (call_carries manager tierIdx tierCall) (ih _)

theorem suppress_carries (manager : TieringOffloadingManager P) (keys : List OffloadKey) :
    Carries store queues manager (manager.suppressPromotionFailures keys) := by
  unfold TieringOffloadingManager.suppressPromotionFailures
  split
  · exact carries_refl manager
  · exact carries_of_same ⟨rfl, rfl, rfl, rfl, le_rfl⟩ rfl

theorem same_pool_carries {manager : TieringOffloadingManager P}
    {primary : CPUOffloadingManager P} (same : CpuPool.SamePool manager.primaryTier primary) :
    Carries store queues manager (manager.withPrimary primary) := by
  apply with_primary_carries
  intro lawful
  obtain ⟨after, get⟩ := same_pool_lawful same lawful
  exact ⟨after, fun key => (pending_congr (get key)).mp⟩

theorem pin_carries {manager : TieringOffloadingManager P} {keys : List OffloadKey}
    {blockIds : List Nat} {primary : CPUOffloadingManager P}
    (loaded : manager.primaryTier.prepareLoad keys = .ok (blockIds, primary)) :
    Carries store queues manager (manager.withPrimary primary) := by
  apply with_primary_carries
  intro lawful
  obtain ⟨after, same⟩ := prepare_load_pending keys lawful loaded
  exact ⟨after, fun key => (same key).mp⟩

theorem unpin_carries {manager : TieringOffloadingManager P} {keys : List OffloadKey}
    {primary : CPUOffloadingManager P}
    (completed : manager.primaryTier.completeLoad keys = .ok primary) :
    Carries store queues manager (manager.withPrimary primary) := by
  apply with_primary_carries
  intro lawful
  obtain ⟨after, same⟩ := complete_load_pending keys lawful completed
  exact ⟨after, fun key => (same key).mp⟩

theorem touch_carries (manager : TieringOffloadingManager P) (keys : List OffloadKey) :
    Carries store queues manager (manager.touch keys) := by
  have touched : Carries store queues manager
      (manager.withPrimary (manager.primaryTier.touch keys)) := by
    apply with_primary_carries
    intro lawful
    obtain ⟨after, get⟩ := touch_lawful keys lawful
    exact ⟨after, fun key => (pending_congr (get key)).mp⟩
  exact carries_trans touched (call_all_carries _ _)

theorem complete_write_carries {manager after : TieringOffloadingManager P}
    {keys : List OffloadKey} {success : Bool}
    (written : manager.completeWrite keys success = .ok after) :
    Carries store queues manager after ∧ SameCarriers manager after ∧
      (Sound manager → Settled manager.primaryTier after.primaryTier keys) := by
  obtain ⟨primary, completed, done⟩ := bind_eq_ok.mp written
  cases done
  have settled : Sound manager → Settled manager.primaryTier primary keys :=
    fun sound => complete_store_settled sound.lawful completed
  refine ⟨?_, ⟨rfl, rfl, rfl, rfl, le_rfl⟩, settled⟩
  apply with_primary_carries
  intro lawful
  obtain ⟨after, same⟩ := complete_store_settled lawful completed
  exact ⟨after, fun key waiting => ((same key).mp waiting).1⟩

end Quiet

section Jobs

omit [LawfulCachePolicy P] [CachePolicy P] in
theorem in_jobs_set {manager : TieringOffloadingManager P} {jobId : JobId} {job : JobMetadata}
    (fresh : manager.jobs.get? jobId = none) {key : OffloadKey} (held : InJobs manager key) :
    ∃ otherId other, (manager.jobs.set jobId job).get? otherId = some other ∧
      other.transferJob.isPromotion = true ∧ key ∈ other.transferJob.keys := by
  obtain ⟨otherId, other, found, isPromotion, member⟩ := held
  have different : otherId ≠ jobId := by
    intro same
    rw [same, fresh] at found
    cases found
  exact ⟨otherId, other, (manager.jobs.get_set_of_ne job different).trans found, isPromotion,
    member⟩

/-- A job under the next number. -/
theorem register_carries {manager : TieringOffloadingManager P} {job : TransferJob}
    (tierIdx : Nat) (jobId : job.jobId = manager.jobIdCounter) :
    Carries store queues manager (manager.nextJobId.registerJob job tierIdx) := by
  apply carries_of_kept
  · intro sound
    refine ⟨sound.lawful, fun otherId other found => ?_⟩
    show otherId < manager.jobIdCounter + 1
    by_cases same : otherId = job.jobId
    · rw [same, jobId]
      exact Nat.lt_succ_self _
    · have before : manager.jobs.get? otherId = some other :=
        (manager.jobs.get_set_of_ne _ same).symm.trans found
      exact Nat.lt_succ_of_lt (sound.jobs otherId other before)
  · exact ⟨rfl, rfl⟩
  · intro sound key waiting
    refine ⟨waiting, fun carried => carried.imp (fun held => ?_) id⟩
    have fresh : manager.jobs.get? job.jobId = none := by
      cases found : manager.jobs.get? job.jobId with
      | none => rfl
      | some old => exact absurd (sound.jobs _ old found) (jobId ▸ lt_irrefl _)
    exact in_jobs_set fresh held
  · exact .inr rfl

theorem create_store_job_carries {manager after : TieringOffloadingManager P}
    {keys : List OffloadKey} {reqContext : ReqContext} {tierIdx : Nat} {job : TransferJob}
    (created : manager.createStoreJob keys reqContext tierIdx = .ok (job, after)) :
    Carries store queues manager after := by
  obtain ⟨⟨blockIds, primary⟩, loaded, done⟩ := bind_eq_ok.mp created
  cases done
  exact carries_trans (pin_carries loaded) (register_carries tierIdx rfl)

theorem cascade_carries (tiers : List Nat) {manager after : TieringOffloadingManager P}
    {keys : List OffloadKey} {reqContext : ReqContext}
    (cascaded : manager.cascade keys reqContext tiers = .ok after) :
    Carries store queues manager after := by
  induction tiers generalizing manager with
  | nil =>
      cases cascaded
      exact carries_refl _
  | cons tierIdx rest ih =>
      obtain ⟨⟨job, middle⟩, created, later⟩ := bind_eq_ok.mp cascaded
      exact carries_trans (create_store_job_carries created)
        (carries_trans (call_carries middle tierIdx _) (ih later))

theorem ready_keys_carries (keys : List OffloadKey) {manager after : TieringOffloadingManager P}
    {ready : List OffloadKey} (found : manager.readyKeys keys = .ok (ready, after)) :
    Carries store queues manager after := by
  induction keys generalizing manager ready with
  | nil =>
      cases found
      exact carries_refl _
  | cons key rest ih =>
      obtain ⟨⟨result, primary⟩, looked, found⟩ := bind_eq_ok.mp found
      obtain ⟨⟨others, last⟩, later, done⟩ := bind_eq_ok.mp found
      cases done
      exact carries_trans (same_pool_carries (lookup_spec looked).1) (ih later)

theorem cascade_existing_carries {manager after : TieringOffloadingManager P}
    {keys : List OffloadKey} {reqContext : ReqContext} {tiers : List Nat}
    (cascaded : manager.cascadeExistingBlocksToRequestLevelTiers keys reqContext tiers =
      .ok after) : Carries store queues manager after := by
  obtain ⟨⟨ready, middle⟩, found, cascaded⟩ := bind_eq_ok.mp cascaded
  have readyCarries : Carries store queues manager middle := ready_keys_carries keys found
  by_cases empty : ready = []
  · simp only [empty, if_true] at cascaded
    cases cascaded
    exact readyCarries
  · simp only [empty, if_false] at cascaded
    exact carries_trans readyCarries (cascade_carries _ cascaded)

end Jobs

section Reserving

omit [CachePolicy P] [LawfulCachePolicy P] in
/-- The last entry of a key wins. -/
theorem set_all_last {κ ν : Type} [DecidableEq κ] (entries : List (κ × ν))
    (map : OrderedMap κ ν) (key : κ) :
    (∃ value, (key, value) ∈ entries ∧
      (entries.foldl (fun map entry => map.set entry.1 entry.2) map).get? key = some value) ∨
    (key ∉ entries.map Prod.fst ∧
      (entries.foldl (fun map entry => map.set entry.1 entry.2) map).get? key =
        map.get? key) := by
  induction entries generalizing map with
  | nil => exact .inr ⟨List.not_mem_nil, rfl⟩
  | cons entry rest ih =>
      rcases ih (map.set entry.1 entry.2) with ⟨value, member, last⟩ | ⟨absent, kept⟩
      · exact .inl ⟨value, List.mem_cons_of_mem _ member, last⟩
      · rw [List.foldl_cons, kept, OrderedMap.get_set]
        by_cases same : key = entry.1
        · rw [if_pos same]
          exact .inl ⟨entry.2, by rw [same]; exact List.mem_cons_self, rfl⟩
        · rw [if_neg same, List.map_cons, List.mem_cons, not_or]
          exact .inr ⟨⟨same, absent⟩, rfl⟩

/-- A reserved key holds one of the new numbers, and the others keep theirs. -/
theorem ledger_reserve_last (ledger : ReservationLedger) (keys : List OffloadKey)
    (key : OffloadKey) :
    (key ∈ keys → ∃ number, (ledger.reserve keys).current.get? key = some number ∧
      ledger.next ≤ number ∧ number < (ledger.reserve keys).next) ∧
    (key ∉ keys → (ledger.reserve keys).current.get? key = ledger.current.get? key) := by
  have listed : (keys.zip (ledger.numbers keys)).map Prod.fst = keys :=
    List.map_fst_zip (by rw [ledger_numbers_length])
  have last := set_all_last (keys.zip (ledger.numbers keys)) ledger.current key
  rw [listed] at last
  constructor
  · intro member
    obtain ⟨number, entry, holds⟩ := last.resolve_right fun kept => kept.1 member
    exact ⟨number, holds, ledger_numbers_fresh (List.of_mem_zip entry).2⟩
  · intro absent
    rcases last with ⟨number, entry, _⟩ | ⟨_, kept⟩
    · exact absurd (List.of_mem_zip entry).1 absent
    · exact kept

omit [LawfulCachePolicy P] [CachePolicy P] in
/-- What the queue held it still holds, with the new keys. -/
theorem queue_keeps (manager : TieringOffloadingManager P) (tierIdx : Nat)
    (reqContext : ReqContext) (output : PrepareStoreOutput) {key : OffloadKey}
    (held : InQueue manager key ∨ key ∈ output.keysToStore) :
    InQueue (manager.queuePromotion tierIdx reqContext output) key := by
  generalize ownTier_eq : (manager.pendingLoadSubmissions.get? tierIdx).getD OrderedMap.empty =
    ownTier
  generalize own_eq : (ownTier.get? reqContext.reqId).getD ⟨reqContext, [], [], []⟩ = own
  let entry : PendingPromotion := { own with
    keys := own.keys ++ output.keysToStore
    blockIds := own.blockIds ++ output.storeSpec
    reservations := own.reservations ++ manager.ledger.numbers output.keysToStore }
  have queued : (manager.queuePromotion tierIdx reqContext output).pendingLoadSubmissions =
      manager.pendingLoadSubmissions.set tierIdx (ownTier.set reqContext.reqId entry) := by
    unfold TieringOffloadingManager.queuePromotion
    rw [ownTier_eq]
    dsimp only
    rw [own_eq]
  have ownFound : (manager.queuePromotion tierIdx reqContext output).pendingLoadSubmissions.get?
      tierIdx = some (ownTier.set reqContext.reqId entry) := by
    rw [queued, OrderedMap.get_set_self]
  have own : key ∈ own.keys ∨ key ∈ output.keysToStore →
      InQueue (manager.queuePromotion tierIdx reqContext output) key := fun member =>
    ⟨tierIdx, _, reqContext.reqId, entry, ownFound, OrderedMap.get_set_self ..,
      List.mem_append.mpr member⟩
  rcases held with ⟨otherTier, tierPending, reqId, other, found, here, member⟩ | new
  · by_cases sameTier : otherTier = tierIdx
    · subst sameTier
      rw [found, Option.getD_some] at ownTier_eq
      subst ownTier_eq
      by_cases sameReq : reqId = reqContext.reqId
      · subst sameReq
        rw [here, Option.getD_some] at own_eq
        exact own (.inl (own_eq ▸ member))
      · exact ⟨otherTier, _, reqId, other, ownFound,
          (tierPending.get_set_of_ne entry sameReq).trans here, member⟩
    · refine ⟨otherTier, tierPending, reqId, other, ?_, here, member⟩
      rw [queued, OrderedMap.get_set_of_ne _ _ sameTier]
      exact found
  · exact own (.inr new)

variable [BatchInserting P]

theorem initiate_promotion_carries {manager after : TieringOffloadingManager P} {tierIdx : Nat}
    {key : OffloadKey} {reqContext : ReqContext} {promoted : Bool}
    (initiated : manager.initiatePromotion tierIdx key reqContext = .ok (promoted, after)) :
    Carries store (promoted = true) manager after := by
  obtain ⟨⟨output, primary⟩, prepared, done⟩ := bind_eq_ok.mp initiated
  cases output with
  | none =>
      cases done
      apply with_primary_carries
      intro lawful
      obtain ⟨after, pending⟩ := prepare_store_pending lawful prepared
      refine ⟨after, fun key waiting => ?_⟩
      rcases pending key waiting with ⟨accepted, none, _⟩ | ⟨_, before⟩
      · cases none
      · exact before
  | some output =>
      cases done
      let queued := (manager.withPrimary primary).queuePromotion tierIdx reqContext output
      refine ⟨fun sound => ?_, Nat.le_add_right _ _, fun sound other waiting => ?_, .inl rfl⟩
      · exact ⟨(prepare_store_pending sound.lawful prepared).1, sound.jobs⟩
      · obtain ⟨reserved, kept⟩ := ledger_reserve_last manager.ledger output.keysToStore other
        rcases (prepare_store_pending sound.lawful prepared).2 other waiting with
          ⟨accepted, same, member⟩ | ⟨outside, before⟩
        · cases same
          exact .inr ⟨reserved member, .inr (.inr (queue_keeps _ tierIdx reqContext output
            (.inr member)))⟩
        · refine .inl ⟨before, kept (outside output rfl), fun carried => ?_⟩
          exact carried.imp id fun held =>
            queue_keeps (manager.withPrimary primary) tierIdx reqContext output (.inl held)

omit [BatchInserting P] in
theorem filter_tier_hit_carries (manager : TieringOffloadingManager P) (key : OffloadKey)
    (startTime : Rat) (result : LookupResult) :
    Carries store queues manager (manager.filterTierHit key startTime result).2 := by
  unfold TieringOffloadingManager.filterTierHit
  split
  · split
    · exact carries_refl manager
    · split
      · exact carries_refl manager
      · exact carries_of_same ⟨rfl, rfl, rfl, rfl, le_rfl⟩ rfl
  · exact carries_refl manager

theorem lookup_tiers_carries (tiers : List (Nat × TierInfo))
    {manager after : TieringOffloadingManager P} {key : OffloadKey} {reqContext : ReqContext}
    {excludeTierIdx : Option Nat} {anyRetry : Bool} {result : LookupResult}
    (looked : manager.lookupTiers key reqContext excludeTierIdx anyRetry tiers =
      .ok (result, after)) : Carries store (result = .hitPending) manager after := by
  induction tiers generalizing manager anyRetry with
  | nil =>
      cases looked
      exact carries_refl _
  | cons tier rest ih =>
      unfold TieringOffloadingManager.lookupTiers at looked
      split at looked
      · exact ih looked
      · have filtered : Carries store (result = .hitPending) manager.next (manager.next.filterTierHit
            key manager.answer.now manager.answer.lookup).2 :=
          filter_tier_hit_carries manager.next key manager.answer.now manager.answer.lookup
        generalize manager.next.filterTierHit key manager.answer.now manager.answer.lookup =
          answered at looked filtered
        obtain ⟨answer, middle⟩ := answered
        have middleCarries := carries_trans (next_carries manager) filtered
        cases answer with
        | hit =>
            obtain ⟨⟨promoted, last⟩, initiated, done⟩ := bind_eq_ok.mp looked
            cases done
            apply carries_trans middleCarries
            apply carries_weaken _ (initiate_promotion_carries initiated)
            exact fun isPromoted => if_pos isPromoted
        | miss => exact carries_trans middleCarries (ih looked)
        | hitPending => exact carries_trans middleCarries (ih looked)
        | retry => exact carries_trans middleCarries (ih looked)

end Reserving

section Polling

omit [CachePolicy P] [LawfulCachePolicy P] in
/-- The two lists of a report are all keys of the promotion. -/
theorem promotion_split_covers {job : TransferJob} {result : JobResult}
    {stored failed : List OffloadKey}
    (split : TieringOffloadingManager.promotionSplit job result = .ok (stored, failed))
    {key : OffloadKey} (member : key ∈ job.keys) : key ∈ stored ∨ key ∈ failed := by
  unfold TieringOffloadingManager.promotionSplit at split
  split at split
  · cases split
    exact .inl member
  · split at split
    · cases split
      exact .inr member
    · obtain ⟨_, _, done⟩ := bind_eq_ok.mp split
      cases done
      by_cases inStored : key ∈ result.successfulKeys
      · exact .inl inStored
      · exact .inr (List.mem_filter.mpr ⟨member, by simpa using inStored⟩)

/-- A job leaves the books, and none of its keys waits afterwards if it is a promotion. -/
theorem popped_carries {manager after : TieringOffloadingManager P} {jobId : JobId}
    (same : SameCarriers (manager.popJob jobId) after)
    (moved : Lawful manager.primaryTier → Lawful after.primaryTier ∧
      ∀ key, Pending after.primaryTier key → Pending manager.primaryTier key)
    (settled : Lawful manager.primaryTier → ∀ job, manager.jobs.get? jobId = some job →
      job.transferJob.isPromotion = true → ∀ key ∈ job.transferJob.keys,
        ¬Pending after.primaryTier key) : Carries store queues manager after := by
  apply carries_of_kept
  · intro sound
    refine ⟨(moved sound.lawful).1, fun otherId other found => ?_⟩
    rw [same.jobs] at found
    exact (sound.jobs otherId other (jobs_erase_get found)).trans_le same.counter
  · exact ⟨same.next, same.current⟩
  · intro sound key waiting
    refine ⟨(moved sound.lawful).2 key waiting, fun carried => (carried_same same key).mpr ?_⟩
    refine carried.imp (fun held => ?_) id
    obtain ⟨otherId, other, found, isPromotion, member⟩ := held
    have different : otherId ≠ jobId := by
      rintro rfl
      exact settled sound.lawful other found isPromotion key member waiting
    exact ⟨otherId, other, (manager.jobs.get_erase_of_ne different).trans found, isPromotion,
      member⟩
  · exact .inr same.queue

theorem complete_promotion_carries {manager after : TieringOffloadingManager P} {jobId : JobId}
    {job : JobMetadata} {result : JobResult} (found : manager.jobs.get? jobId = some job)
    (completed : (manager.popJob jobId).completePromotion job.transferJob result = .ok after) :
    Carries store queues manager after := by
  obtain ⟨⟨stored, failed⟩, split, completed⟩ := bind_eq_ok.mp completed
  obtain ⟨first, firstOk, completed⟩ := bind_eq_ok.mp completed
  obtain ⟨second, secondOk, completed⟩ := bind_eq_ok.mp completed
  obtain ⟨firstPrimary, firstWritten, done⟩ := bind_eq_ok.mp firstOk
  cases done
  obtain ⟨secondPrimary, secondWritten, done⟩ := bind_eq_ok.mp secondOk
  cases done
  let settled := (((((manager.popJob jobId).withPrimary firstPrimary).withPrimary
    secondPrimary).forgetPromotionFailures stored).fillLedger
      (TieringOffloadingManager.reservationsOf job.transferJob stored))
  have both : Lawful manager.primaryTier → Lawful secondPrimary ∧ ∀ key,
      Pending secondPrimary key ↔
        (Pending manager.primaryTier key ∧ key ∉ stored) ∧ key ∉ failed := by
    intro lawful
    have once := complete_store_settled lawful firstWritten
    have twice := complete_store_settled once.1 secondWritten
    exact ⟨twice.1, fun key => (twice.2 key).trans (and_congr_left' (once.2 key))⟩
  have settledCarries : Carries store queues manager settled := by
    have same : SameCarriers (manager.popJob jobId) settled := ⟨rfl, rfl, rfl, rfl, le_rfl⟩
    apply popped_carries same
    · intro lawful
      exact ⟨(both lawful).1, fun key waiting => (((both lawful).2 key).mp waiting).1.1⟩
    · intro lawful other otherFound _ key member waiting
      rw [found] at otherFound
      cases otherFound
      obtain ⟨⟨_, notStored⟩, notFailed⟩ := ((both lawful).2 key).mp waiting
      exact (promotion_split_covers split member).elim notStored notFailed
  dsimp only at completed
  split at completed
  · cases completed
    exact settledCarries
  · cases completed
    exact carries_trans settledCarries (suppress_carries _ failed)

theorem consume_result_carries {manager after : TieringOffloadingManager P} {tierIdx : Nat}
    {result : JobResult} (consumed : manager.consumeResult tierIdx result = .ok after) :
    Carries store queues manager after := by
  unfold TieringOffloadingManager.consumeResult at consumed
  split at consumed
  · cases consumed
    exact carries_of_same ⟨rfl, rfl, rfl, rfl, le_rfl⟩ rfl
  · cases found : manager.jobs.get? result.jobId with
    | none => simp [found] at consumed
    | some job =>
        simp only [found] at consumed
        obtain ⟨_, _, consumed⟩ := bind_eq_ok.mp consumed
        split at consumed
        · exact complete_promotion_carries found consumed
        · rename_i notPromotion
          obtain ⟨primary, unpinned, done⟩ := bind_eq_ok.mp consumed
          cases done
          have same : SameCarriers (manager.popJob result.jobId)
              ((manager.popJob result.jobId).withPrimary primary) :=
            ⟨rfl, rfl, rfl, rfl, le_rfl⟩
          apply popped_carries same
          · intro lawful
            obtain ⟨after, same⟩ := complete_load_pending _ lawful unpinned
            exact ⟨after, fun key => (same key).mp⟩
          · intro _ other otherFound isPromotion
            rw [found] at otherFound
            cases otherFound
            exact absurd isPromotion notPromotion

theorem consume_results_carries (results : List JobResult)
    {manager after : TieringOffloadingManager P} {tierIdx : Nat}
    (consumed : manager.consumeResults tierIdx results = .ok after) :
    Carries store queues manager after := by
  induction results generalizing manager with
  | nil =>
      cases consumed
      exact carries_refl _
  | cons result rest ih =>
      obtain ⟨middle, first, later⟩ := bind_eq_ok.mp consumed
      exact carries_trans (consume_result_carries first) (ih later)

theorem poll_tiers_carries (tiers : List Nat) {manager after : TieringOffloadingManager P}
    (polled : manager.pollTiers tiers = .ok after) : Carries store queues manager after := by
  induction tiers generalizing manager with
  | nil =>
      cases polled
      exact carries_refl _
  | cons tierIdx rest ih =>
      obtain ⟨middle, first, later⟩ := bind_eq_ok.mp polled
      exact carries_trans (next_carries manager)
        (carries_trans (consume_results_carries _ first) (ih later))

theorem retract_promotion_carries {manager after : TieringOffloadingManager P} {jobId : JobId}
    (retracted : manager.retractPromotion jobId = .ok after) : Carries store queues manager after := by
  unfold TieringOffloadingManager.retractPromotion at retracted
  cases found : manager.jobs.get? jobId with
  | none =>
      simp only [found] at retracted
      cases retracted
      have same : SameCarriers (manager.popJob jobId)
          ((manager.popJob jobId).addRetracted jobId) := ⟨rfl, rfl, rfl, rfl, le_rfl⟩
      apply popped_carries same
      · exact fun lawful => ⟨lawful, fun _ => id⟩
      · intro _ other otherFound
        rw [found] at otherFound
        cases otherFound
  | some job =>
      simp only [found] at retracted
      obtain ⟨written, writeOk, done⟩ := bind_eq_ok.mp retracted
      cases done
      obtain ⟨primary, completed, done⟩ := bind_eq_ok.mp writeOk
      cases done
      let dropped := ((manager.popJob jobId).addRetracted jobId).withPrimary primary
      have same : SameCarriers (manager.popJob jobId) dropped := ⟨rfl, rfl, rfl, rfl, le_rfl⟩
      have popped : Carries store queues manager dropped := by
        apply popped_carries same
        · intro lawful
          obtain ⟨after, settled⟩ := complete_store_settled lawful completed
          exact ⟨after, fun key waiting => ((settled key).mp waiting).1⟩
        · intro lawful other otherFound _ key member waiting
          rw [found] at otherFound
          cases otherFound
          exact (((complete_store_settled lawful completed).2 key).mp waiting).2 member
      exact carries_trans popped (suppress_carries _ _)

theorem retract_promotions_carries (jobIds : List JobId)
    {manager after : TieringOffloadingManager P}
    (retracted : manager.retractPromotions jobIds = .ok after) :
    Carries store queues manager after := by
  induction jobIds generalizing manager with
  | nil =>
      cases retracted
      exact carries_refl _
  | cons jobId rest ih =>
      obtain ⟨middle, first, later⟩ := bind_eq_ok.mp retracted
      exact carries_trans (retract_promotion_carries first) (ih later)

theorem retract_store_pends_carries (groups : List (JobId × List OffloadKey))
    {manager after : TieringOffloadingManager P}
    (retracted : manager.retractStorePends groups = .ok after) :
    Carries store queues manager after := by
  induction groups generalizing manager with
  | nil =>
      cases retracted
      exact carries_refl _
  | cons group rest ih =>
      obtain ⟨middle, written, later⟩ := bind_eq_ok.mp retracted
      have marked : Carries store queues manager (manager.addRetracted group.1) :=
        carries_of_same ⟨rfl, rfl, rfl, rfl, le_rfl⟩ rfl
      have counted : Carries store queues middle middle.countRetracted :=
        carries_of_same ⟨rfl, rfl, rfl, rfl, le_rfl⟩ rfl
      exact carries_trans marked (carries_trans (complete_write_carries written).1
        (carries_trans counted (ih later)))

theorem expire_store_pends_carries {manager after : TieringOffloadingManager P}
    (expired : manager.expireStaleStorePends = .ok after) : Carries store queues manager after := by
  unfold TieringOffloadingManager.expireStaleStorePends at expired
  split at expired
  · cases expired
    exact carries_refl _
  · dsimp only at expired
    obtain ⟨owners, groups, disarmed, _⟩ := TieringPolling.disarm_expired_spec
      (manager.expiredStorePends manager.answer.now) manager.next OrderedMap.empty
    rw [disarmed] at expired
    have same : Carries store queues manager (manager.next.withStorePends
        ((manager.expiredStorePends manager.answer.now).foldl
          (fun deadlines key => deadlines.erase key) manager.next.storePendingDeadline) owners) :=
      carries_of_same ⟨rfl, rfl, rfl, rfl, le_rfl⟩ rfl
    exact carries_trans same (retract_store_pends_carries _ expired)

theorem process_carries {manager after : TieringOffloadingManager P}
    (processed : manager.processFinishedJobs = .ok after) : Carries store queues manager after := by
  obtain ⟨polled, pollOk, processed⟩ := bind_eq_ok.mp processed
  obtain ⟨promoted, promoteOk, expired⟩ := bind_eq_ok.mp processed
  have retracted : Carries store queues polled promoted := by
    unfold TieringOffloadingManager.expireStalePromotions at promoteOk
    split at promoteOk
    · cases promoteOk
      exact carries_refl _
    · exact carries_trans (next_carries polled) (retract_promotions_carries _ promoteOk)
  exact carries_trans (poll_tiers_carries _ pollOk)
    (carries_trans retracted (expire_store_pends_carries expired))

theorem maybe_process_carries {manager after : TieringOffloadingManager P}
    (processed : manager.maybeProcessFinishedJobs = .ok after) :
    Carries store queues manager after := by
  unfold TieringOffloadingManager.maybeProcessFinishedJobs at processed
  split at processed
  · cases processed
    exact carries_refl _
  · have gated : Carries store queues manager (manager.setProcessed true) :=
      carries_of_same ⟨rfl, rfl, rfl, rfl, le_rfl⟩ rfl
    exact carries_trans gated (process_carries processed)

end Polling

section Operations

theorem set_request_carries (manager : TieringOffloadingManager P) (reqId : ReqId)
    (state : RequestState) : Carries store queues manager (manager.setRequest reqId state) :=
  carries_of_same ⟨rfl, rfl, rfl, rfl, le_rfl⟩ rfl

theorem forward_finished_carries (manager : TieringOffloadingManager P) (reqContext : ReqContext)
    (excludeTierIdx : Option Nat) :
    Carries store queues manager (manager.forwardRequestFinished reqContext excludeTierIdx) := by
  unfold TieringOffloadingManager.forwardRequestFinished
  induction List.range manager.secondaryTiers.length generalizing manager with
  | nil => exact carries_refl manager
  | cons tierIdx rest ih =>
      rw [List.foldl_cons]
      split
      · exact ih manager
      · exact carries_trans (call_carries manager tierIdx _) (ih _)

theorem finalize_carries {manager after : TieringOffloadingManager P} {reqId : ReqId}
    {excludeTierIdx : Option Nat}
    (finalized : manager.maybeFinalizeRequest reqId excludeTierIdx = .ok after) :
    Carries store queues manager after := by
  obtain ⟨state, _, finalized⟩ := bind_eq_ok.mp finalized
  split at finalized
  · cases finalized
    exact carries_refl manager
  · cases finalized
    exact carries_trans (forward_finished_carries manager state.reqContext excludeTierIdx)
      (carries_of_same ⟨rfl, rfl, rfl, rfl, le_rfl⟩ rfl)

theorem complete_store_carries {manager after : TieringOffloadingManager P}
    {keys : List OffloadKey} {reqContext : ReqContext} {success : Bool}
    (completed : manager.completeStore keys reqContext success = .ok after) :
    Carries store queues manager after := by
  obtain ⟨written, writeOk, completed⟩ := bind_eq_ok.mp completed
  have disarmed : Carries store queues manager (written.disarmStorePends keys) :=
    carries_trans (complete_write_carries writeOk).1
      (carries_of_same ⟨rfl, rfl, rfl, rfl, le_rfl⟩ rfl)
  have settle : ∀ {middle : TieringOffloadingManager P},
      middle.settleRequest reqContext.reqId = .ok after → Carries store queues middle after := by
    intro middle settled
    obtain ⟨state, _, settled⟩ := bind_eq_ok.mp settled
    obtain ⟨_, _, finalized⟩ := bind_eq_ok.mp settled
    exact carries_trans (set_request_carries middle reqContext.reqId _)
      (finalize_carries finalized)
  dsimp only at completed
  split at completed
  · obtain ⟨cascaded, cascadeOk, settled⟩ := bind_eq_ok.mp completed
    exact carries_trans disarmed (carries_trans (cascade_carries _ cascadeOk) (settle settled))
  · exact carries_trans disarmed (settle completed)

theorem ask_policies_carries (tiers : List Nat) (manager : TieringOffloadingManager P)
    (excludeTierIdx : Option Nat) :
    Carries store queues manager (manager.askPolicies excludeTierIdx tiers).2 := by
  induction tiers generalizing manager with
  | nil => exact carries_refl manager
  | cons tierIdx rest ih =>
      unfold TieringOffloadingManager.askPolicies
      split
      · exact ih manager
      · exact carries_trans (next_carries manager) (ih manager.next)

theorem new_request_carries (manager : TieringOffloadingManager P) (reqContext : ReqContext)
    (excludeTierIdx : Option Nat) :
    Carries store queues manager (manager.onNewRequest reqContext excludeTierIdx).2 :=
  carries_trans (ask_policies_carries _ manager excludeTierIdx) (set_request_carries _ _ _)

theorem request_finished_carries {manager after : TieringOffloadingManager P}
    {reqContext : ReqContext} {excludeTierIdx : Option Nat}
    (finished : manager.onRequestFinished reqContext excludeTierIdx = .ok after) :
    Carries store queues manager after := by
  obtain ⟨state, _, finished⟩ := bind_eq_ok.mp finished
  exact carries_trans (set_request_carries manager _ _) (finalize_carries finished)

theorem prepare_load_carries {manager after : TieringOffloadingManager P}
    {keys : List OffloadKey} {blockIds : List Nat}
    (loaded : manager.prepareLoad keys = .ok (blockIds, after)) :
    Carries store queues manager after := by
  obtain ⟨⟨ids, primary⟩, pinned, done⟩ := bind_eq_ok.mp loaded
  cases done
  exact pin_carries pinned

theorem complete_load_carries {manager after : TieringOffloadingManager P}
    {keys : List OffloadKey} (completed : manager.completeLoad keys = .ok after) :
    Carries store queues manager after := by
  obtain ⟨primary, unpinned, done⟩ := bind_eq_ok.mp completed
  cases done
  exact unpin_carries unpinned

theorem drain_carries (manager : TieringOffloadingManager P) :
    Carries store queues manager manager.drainFlushJobIds.2 :=
  carries_of_same ⟨rfl, rfl, rfl, rfl, le_rfl⟩ rfl

/-- A reset leaves no key waiting. -/
theorem reset_cache_carries {manager after : TieringOffloadingManager P}
    (reset : manager.resetCache = .ok after) : Carries store True manager after := by
  obtain ⟨polled, processed, reset⟩ := bind_eq_ok.mp reset
  obtain ⟨_, idle, reset⟩ := bind_eq_ok.mp reset
  have idle := py_assert_eq_ok.mp idle
  cases reset
  have called : Carries store True manager polled :=
    carries_trans (call_all_carries manager _) (process_carries processed)
  generalize cleared_eq : ({ polled.withStorePends OrderedMap.empty OrderedMap.empty with
    pendingLoadSubmissions := OrderedMap.empty } : TieringOffloadingManager P) = cleared
  have same := reset_requests_core cleared
  have ledger : cleared.resetRequests.ledger = polled.ledger := by
    rw [same.ledger, ← cleared_eq]
    rfl
  have jobs : cleared.resetRequests.jobs = polled.jobs := by
    rw [same.jobs, ← cleared_eq]
    rfl
  have counter : cleared.resetRequests.jobIdCounter = polled.jobIdCounter := by
    rw [same.counter, ← cleared_eq]
    rfl
  obtain ⟨lawful, vacant⟩ := reset_cache_pending cleared.resetRequests.primaryTier
  refine ⟨fun sound => ⟨lawful, ?_⟩, ?_, fun _ key waiting => absurd waiting (vacant key),
    .inl trivial⟩
  · intro jobId job found
    change cleared.resetRequests.jobs.get? jobId = some job at found
    show jobId < cleared.resetRequests.jobIdCounter
    rw [jobs] at found
    rw [counter]
    exact (called.sound sound).jobs jobId job found
  · exact called.next_le.trans (congrArg ReservationLedger.next ledger).ge

variable [BatchInserting P]

omit [LawfulCachePolicy P] [BatchInserting P] in
/-- The lookup is about to reserve a block for a key that the primary tier does not have. -/
def startsPromotion (manager : TieringOffloadingManager P) (key : OffloadKey)
    (reqContext : ReqContext) (excludeTierIdx : Option Nat := none) : Bool :=
  (PrimaryCalls.promotionStore manager key reqContext excludeTierIdx).isSome

theorem lookup_carries {manager after : TieringOffloadingManager P} {key : OffloadKey}
    {reqContext : ReqContext} {excludeTierIdx : Option Nat} {result : LookupResult}
    (looked : manager.lookup key reqContext excludeTierIdx = .ok (result, after)) :
    Carries store (startsPromotion manager key reqContext excludeTierIdx = true) manager
      after := by
  obtain ⟨_, _, spec⟩ := PrimaryCalls.lookup_looked looked
  obtain ⟨polled, pollOk, looked⟩ := bind_eq_ok.mp looked
  obtain ⟨⟨primaryHit, primary⟩, primaryOk, looked⟩ := bind_eq_ok.mp looked
  obtain ⟨same, primaryResult⟩ := lookup_spec primaryOk
  obtain rfl := Except.ok.inj (pollOk.symm.trans spec.polls)
  have first : Carries store (startsPromotion manager key reqContext excludeTierIdx = true)
      manager (polled.withPrimary primary) :=
    carries_trans (maybe_process_carries pollOk) (same_pool_carries same)
  cases primaryHit with
  | hit =>
      cases looked
      exact first
  | hitPending =>
      cases looked
      exact first
  | miss =>
      apply carries_trans first
      apply carries_weaken _ (lookup_tiers_carries _ looked)
      intro promoted
      rcases spec.stores with ⟨_, _, waits⟩ | ⟨_, accepted, _⟩
      · cases primaryResult.trans (waits promoted)
      · exact accepted.mpr promoted
  | retry =>
      exfalso
      unfold CPUOffloadingManager.lookupResult at primaryResult
      split at primaryResult
      · cases primaryResult
      · split at primaryResult
        · cases primaryResult
        · cases primaryResult

theorem serve_call_carries {manager after : TieringOffloadingManager P} {tierIdx : Nat}
    {parentCall : ParentCall} (served : manager.serveCall tierIdx parentCall = .ok after) :
    Carries store True manager after := by
  cases parentCall with
  | onNewRequest reqContext =>
      cases served
      exact new_request_carries manager reqContext _
  | lookup key reqContext =>
      obtain ⟨⟨result, last⟩, looked, done⟩ := bind_eq_ok.mp served
      cases done
      exact carries_weaken (fun _ => trivial) (lookup_carries looked)
  | createStoreJob keys reqContext =>
      obtain ⟨⟨job, last⟩, created, done⟩ := bind_eq_ok.mp served
      cases done
      exact create_store_job_carries created
  | onRequestFinished reqContext => exact request_finished_carries served

theorem serve_calls_carries (calls : List ParentCall)
    {manager after : TieringOffloadingManager P} {tierIdx : Nat}
    (served : manager.serveCalls tierIdx calls = .ok after) : Carries store True manager after := by
  induction calls generalizing manager with
  | nil =>
      cases served
      exact carries_refl _
  | cons parentCall rest ih =>
      obtain ⟨middle, first, later⟩ := bind_eq_ok.mp served
      exact carries_trans (serve_call_carries first) (ih later)

theorem serve_external_carries (tiers : List Nat) {manager after : TieringOffloadingManager P}
    (served : manager.serveExternalRequests tiers = .ok after) :
    Carries store True manager after := by
  induction tiers generalizing manager with
  | nil =>
      cases served
      exact carries_refl _
  | cons tierIdx rest ih =>
      obtain ⟨middle, first, later⟩ := bind_eq_ok.mp served
      exact carries_trans (next_carries manager)
        (carries_trans (serve_calls_carries _ first) (ih later))

omit [BatchInserting P] in
/-- Every submitted batch becomes a job, and no job is lost. -/
theorem submit_all_jobs (queued : List (Nat × PendingPromotion))
    (manager : TieringOffloadingManager P) (sound : Sound manager) :
    let after := queued.foldl
      (fun manager entry => manager.submitPromotion entry.1 entry.2) manager
    (∀ key, InJobs manager key → InJobs after key) ∧
      ∀ entry ∈ queued, ∀ key ∈ entry.2.keys, InJobs after key := by
  induction queued generalizing manager with
  | nil => exact ⟨fun _ => id, by simp⟩
  | cons first rest ih =>
      let job : TransferJob :=
        { jobId := manager.jobIdCounter
          keys := first.2.keys
          blockIds := first.2.blockIds
          isPromotion := true
          reqContext := first.2.reqContext
          reservations := first.2.reservations }
      have submitted : Carries False True manager (manager.submitPromotion first.1 first.2) :=
        carries_trans (register_carries first.1 rfl) (call_carries _ _ _)
      obtain ⟨kept, made⟩ := ih _ (submitted.sound sound)
      have fresh : manager.jobs.get? manager.jobIdCounter = none := by
        cases found : manager.jobs.get? manager.jobIdCounter with
        | none => rfl
        | some old => exact absurd (sound.jobs _ old found) (lt_irrefl _)
      refine ⟨fun key held => kept key (in_jobs_set fresh held), fun entry member key inEntry => ?_⟩
      rcases List.mem_cons.mp member with rfl | later
      · exact kept key ⟨manager.jobIdCounter, ⟨job, entry.1⟩, OrderedMap.get_set_self .., rfl,
          inEntry⟩
      · exact made entry later key inEntry

omit [BatchInserting P] in
theorem flush_carries (manager : TieringOffloadingManager P) :
    Carries store True manager manager.flushPendingPromotions := by
  obtain ⟨primary, _, _⟩ := submit_all_frame manager.queuedPromotions manager
  have submitted : ∀ (queued : List (Nat × PendingPromotion))
      (middle : TieringOffloadingManager P), (Sound middle → Sound (queued.foldl
        (fun manager entry => manager.submitPromotion entry.1 entry.2) middle)) ∧
      (queued.foldl (fun manager entry => manager.submitPromotion entry.1 entry.2)
        middle).ledger = middle.ledger := by
    intro queued
    induction queued with
    | nil => exact fun _ => ⟨id, rfl⟩
    | cons first rest ih =>
        intro middle
        have step : Carries False True middle (middle.submitPromotion first.1 first.2) :=
          carries_trans (register_carries first.1 rfl) (call_carries _ _ _)
        obtain ⟨sound, ledger⟩ := ih (middle.submitPromotion first.1 first.2)
        exact ⟨sound ∘ step.sound, ledger⟩
  obtain ⟨soundAfter, ledger⟩ := submitted manager.queuedPromotions manager
  apply carries_of_kept
  · exact fun sound => ⟨(soundAfter sound).lawful, (soundAfter sound).jobs⟩
  · exact ⟨congrArg ReservationLedger.next ledger, congrArg ReservationLedger.current ledger⟩
  · intro sound key waiting
    obtain ⟨kept, made⟩ := submit_all_jobs manager.queuedPromotions manager sound
    have before : Pending manager.primaryTier key := primary ▸ waiting
    refine ⟨before, fun carried => .inl ?_⟩
    rcases carried with running | ⟨tierIdx, tierPending, reqId, entry, found, here, member⟩
    · exact kept key running
    · apply made (tierIdx, entry) _ key member
      have listed := (manager.pendingLoadSubmissions.get_eq_some_iff tierIdx tierPending).mp found
      have inTier := (tierPending.get_eq_some_iff reqId entry).mp here
      exact List.mem_flatMap.mpr ⟨(tierIdx, tierPending), listed,
        List.mem_map_of_mem (List.mem_map_of_mem inTier)⟩
  · exact .inl trivial

theorem schedule_end_carries {manager after : TieringOffloadingManager P}
    {context : ScheduleEndContext} (ended : manager.onScheduleEnd context = .ok after) :
    Carries store True manager after := by
  obtain ⟨polled, pollOk, ended⟩ := bind_eq_ok.mp ended
  obtain ⟨served, serveOk, ended⟩ := bind_eq_ok.mp ended
  cases ended
  have opened : Carries store True served (served.setProcessed false) :=
    carries_of_same ⟨rfl, rfl, rfl, rfl, le_rfl⟩ rfl
  exact carries_trans (maybe_process_carries pollOk)
    (carries_trans (serve_external_carries _ serveOk)
      (carries_trans opened (carries_trans (flush_carries _) (call_all_carries _ _))))

omit [CachePolicy P] [LawfulCachePolicy P] [BatchInserting P] in
theorem stored_frame (polled : TieringOffloadingManager P) (primary : CPUOffloadingManager P)
    (reqContext : ReqContext) (state : RequestState) (keys : List OffloadKey) :
    let after := storedManager polled primary reqContext state keys
    after.primaryTier = primary ∧ after.ledger = polled.ledger.reserve keys ∧
      after.jobs = polled.jobs ∧
      after.pendingLoadSubmissions = polled.pendingLoadSubmissions ∧
      polled.jobIdCounter ≤ after.jobIdCounter := by
  unfold storedManager
  split
  · rename_i empty
    subst empty
    exact ⟨rfl, rfl, rfl, rfl, le_rfl⟩
  · unfold TieringOffloadingManager.armStorePends
    split
    · exact ⟨rfl, rfl, rfl, rfl, le_rfl⟩
    · exact ⟨rfl, rfl, rfl, rfl, Nat.le_succ _⟩

/-- The keys of a store wait without a carrier. -/
theorem prepare_store_carries {manager after : TieringOffloadingManager P}
    {keys : List OffloadKey} {reqContext : ReqContext} {output : Option PrepareStoreOutput}
    (prepared : manager.prepareStore keys reqContext = .ok (output, after)) :
    Carries True queues manager after := by
  obtain ⟨polled, pollOk, prepared⟩ := bind_eq_ok.mp prepared
  obtain ⟨⟨result, primary⟩, primaryOk, prepared⟩ := bind_eq_ok.mp prepared
  apply carries_trans (maybe_process_carries pollOk)
  cases result with
  | none =>
      cases prepared
      apply with_primary_carries
      intro lawful
      obtain ⟨after, pending⟩ := prepare_store_pending lawful primaryOk
      refine ⟨after, fun key waiting => ?_⟩
      rcases pending key waiting with ⟨accepted, none, _⟩ | ⟨_, before⟩
      · cases none
      · exact before
  | some out =>
      obtain ⟨state, _, prepared⟩ := bind_eq_ok.mp prepared
      obtain ⟨samePrimary, ledger, jobs, queue, counter⟩ :=
        stored_frame polled primary reqContext state out.keysToStore
      have stored : Carries True queues polled
          (storedManager polled primary reqContext state out.keysToStore) := by
        refine ⟨fun sound => ?_, ?_, fun sound key waiting => ?_, .inr queue⟩
        · constructor
          · rw [samePrimary]
            exact (prepare_store_pending sound.lawful primaryOk).1
          · rw [jobs]
            exact fun jobId job found => (sound.jobs jobId job found).trans_le counter
        · rw [ledger]
          exact Nat.le_add_right _ _
        · obtain ⟨reserved, kept⟩ := ledger_reserve_last polled.ledger out.keysToStore key
          rw [samePrimary] at waiting
          rcases (prepare_store_pending sound.lawful primaryOk).2 key waiting with
            ⟨accepted, same, member⟩ | ⟨outside, before⟩
          · cases same
            refine .inr ⟨?_, .inl trivial⟩
            unfold Fresh
            rw [ledger]
            exact reserved member
          · refine .inl ⟨before, ?_, ?_⟩
            · rw [ledger]
              exact kept (outside out rfl)
            · unfold Carried InJobs InQueue
              rw [jobs, queue]
              exact id
      change (if _ then _ else _) = _ at prepared
      split at prepared
      · cases prepared
        exact stored
      · obtain ⟨last, cascaded, done⟩ := bind_eq_ok.mp prepared
        cases done
        exact carries_trans stored (cascade_existing_carries cascaded)

end Operations

end KvOffload.CarriedPromotions
