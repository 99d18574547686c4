import KvOffload.CpuHistories
import KvOffload.ManagerRuns
import KvOffload.TieringOperations

/-!
# The calls of the primary tier

Whatever the tiering manager does, it does to its primary tier through the calls of the
CPU manager. Which calls an operation makes is said here once; a poll of the secondary
tiers only completes transfers, and a lookup stores at most the key it was asked for.
-/

namespace KvOffload.PrimaryCalls

open KvOffload KvOffload.Base KvOffload.PolicyInterface KvOffload.CpuManager
open KvOffload.CpuPool KvOffload.CpuManagerSpec KvOffload.PolicyMoves
open KvOffload.CpuManagerMoves KvOffload.CpuHistories KvOffload.Tiering
open KvOffload.TieringOperations KvOffload.ManagerInterface KvOffload.ManagerRuns

set_option autoImplicit false

variable {P : Type} [CachePolicy P]

inductive Call : CPUOffloadingManager P → CpuEvent → CPUOffloadingManager P → Prop where
  | looked {before after : CPUOffloadingManager P} {key : OffloadKey} {result : LookupResult}
      (call : before.lookup key = .ok (result, after)) : Call before (.lookup key) after
  | touched (before : CPUOffloadingManager P) (keys : List OffloadKey) :
      Call before (.touch keys) (before.touch keys)
  | reserved {before after : CPUOffloadingManager P} {keys : List OffloadKey}
      {bypassThreshold : Bool} {output : Option PrepareStoreOutput}
      (call : before.prepareStore keys bypassThreshold = .ok (output, after)) :
      Call before (.prepareStore keys bypassThreshold) after
  | written {before after : CPUOffloadingManager P} {keys : List OffloadKey} {success : Bool}
      (call : before.completeStore keys success = .ok after) :
      Call before (.completeStore keys success) after
  | pinned {before after : CPUOffloadingManager P} {keys : List OffloadKey}
      {blockIds : List Nat} (call : before.prepareLoad keys = .ok (blockIds, after)) :
      Call before (.prepareLoad keys) after
  | unpinned {before after : CPUOffloadingManager P} {keys : List OffloadKey}
      (call : before.completeLoad keys = .ok after) : Call before (.completeLoad keys) after
  | reset (before : CPUOffloadingManager P) : Call before .resetCache before.resetCache

/-- The call drops blocks that are not its own. -/
def Evicts (before : CPUOffloadingManager P) : CpuEvent → Prop
  | .prepareStore keys bypassThreshold =>
      0 < shortage before (missingKeys before keys bypassThreshold).length
  | .resetCache => True
  | _ => False

/-- Any number of calls of the allowed kinds. -/
abbrev Calls (allowed : CPUOffloadingManager P → CpuEvent → Prop) :
    CPUOffloadingManager P → CPUOffloadingManager P → Prop :=
  Relation.ReflTransGen fun before after => ∃ event, allowed before event ∧ Call before event after

section Effects

variable [LawfulCachePolicy P] [TrackedPolicy P] {before after : CPUOffloadingManager P}

open TrackedPolicy

/-- A call that keeps the blocks of others never evicts. -/
theorem call_moves {event : CpuEvent} (tracked : Tracked before.policy)
    (call : Call before event after) (kind : event ≠ .resetCache) :
    ∃ moves, Moves before.policy moves after.policy ∧
      (¬Evicts before event → ∀ move ∈ moves, ∀ count guarded victims,
        move ≠ .evict count guarded victims) := by
  cases call with
  | looked call => exact ⟨[], (lookup_performed call).policy, fun _ => by simp⟩
  | touched keys => exact ⟨_, (touch_performed keys).policy, fun _ => by simp⟩
  | reserved call =>
      cases prepare_store_performed tracked call with
      | refused performed => exact ⟨[], performed.policy, fun _ => by simp⟩
      | roomy _ _ _ performed => exact ⟨_, performed.policy, fun _ => by simp⟩
      | evicting _ _ short performed =>
          exact ⟨_, performed.policy, fun spares => absurd short spares⟩
  | written call =>
      rcases complete_store_performed call with ⟨_, performed⟩ | ⟨_, moves, performed, kinds⟩
      · exact ⟨_, performed.policy, fun _ => by simp⟩
      · refine ⟨moves, performed.policy, fun _ move member _ _ _ same => ?_⟩
        obtain ⟨key, isDiscard⟩ := kinds move member
        cases isDiscard.symm.trans same
  | pinned call =>
      obtain ⟨moves, performed, kinds⟩ := prepare_load_performed _ call
      refine ⟨moves, performed.policy, fun _ move member _ _ _ same => ?_⟩
      obtain ⟨key, isPin | isRecount⟩ := kinds move member
      · cases isPin.symm.trans same
      · cases isRecount.symm.trans same
  | unpinned call =>
      obtain ⟨moves, performed, kinds, _⟩ := complete_load_performed _ call
      refine ⟨moves, performed.policy, fun _ move member _ _ _ same => ?_⟩
      obtain ⟨key, isRecount | isRelease⟩ := kinds move member
      · cases isRecount.symm.trans same
      · cases isRelease.symm.trans same
  | reset => exact absurd rfl kind

theorem call_tracked {event : CpuEvent} (tracked : Tracked before.policy)
    (call : Call before event after) : Tracked after.policy := by
  by_cases kind : event = .resetCache
  · subst kind
    cases call
    rw [(reset_cache_fields before).1]
    exact tracked_clear _
  · obtain ⟨moves, moved, _⟩ := call_moves tracked call kind
    exact tracked_moves tracked moved

theorem calls_tracked {allowed : CPUOffloadingManager P → CpuEvent → Prop}
    (tracked : Tracked before.policy) (calls : Calls allowed before after) :
    Tracked after.policy := by
  induction calls with
  | refl => exact tracked
  | tail _ step ih =>
      obtain ⟨event, _, call⟩ := step
      exact call_tracked ih call

theorem moves_ready {policy last : P} {moves : List Move} (tracked : Tracked policy)
    (spares : ∀ move ∈ moves, ∀ count guarded victims, move ≠ .evict count guarded victims)
    (moved : Moves policy moves last) {key : OffloadKey} (ready : Ready policy key) :
    Ready last key := by
  induction moves generalizing policy with
  | nil =>
      obtain rfl := moved
      exact ready
  | cons move rest ih =>
      obtain ⟨middle, first, later⟩ := moved
      apply ih (tracked_moved tracked first) (fun other member => spares other (.tail _ member))
        later
      rw [ready_moved tracked first]
      cases move with
      | evict count guarded victims =>
          exact absurd rfl (spares _ List.mem_cons_self count guarded victims)
      | release released => exact .inl ready
      | touch _ => exact ready
      | reserve _ => exact ready
      | discard _ => exact ready
      | pin _ => exact ready
      | recount _ => exact ready

/-- Only an evicting call takes a ready key away. -/
theorem call_ready {event : CpuEvent} (tracked : Tracked before.policy)
    (call : Call before event after) (spares : ¬Evicts before event) {key : OffloadKey}
    (ready : Ready before.policy key) : Ready after.policy key := by
  have kind : event ≠ .resetCache := by
    rintro rfl
    exact spares trivial
  obtain ⟨moves, moved, kinds⟩ := call_moves tracked call kind
  exact moves_ready tracked (kinds spares) moved ready

theorem calls_ready {allowed : CPUOffloadingManager P → CpuEvent → Prop}
    (spares : ∀ primary event, allowed primary event → ¬Evicts primary event)
    (tracked : Tracked before.policy) (calls : Calls allowed before after) {key : OffloadKey}
    (ready : Ready before.policy key) : Ready after.policy key := by
  induction calls with
  | refl => exact ready
  | tail earlier step ih =>
      obtain ⟨event, isAllowed, call⟩ := step
      exact call_ready (calls_tracked tracked earlier) call (spares _ event isAllowed) ih

end Effects

/-- A transfer ends. -/
def Settling (_ : CPUOffloadingManager P) : CpuEvent → Prop
  | .completeStore _ _ => True
  | .completeLoad _ => True
  | _ => False

def Anything (_ : CPUOffloadingManager P) (_ : CpuEvent) : Prop := True

theorem settling_spares (primary : CPUOffloadingManager P) (event : CpuEvent)
    (settling : Settling primary event) : ¬Evicts primary event := by
  cases event with
  | completeStore _ _ => exact id
  | completeLoad _ => exact id
  | _ => exact settling.elim

theorem calls_mono {allowed wider : CPUOffloadingManager P → CpuEvent → Prop}
    (imply : ∀ primary event, allowed primary event → wider primary event)
    {before after : CPUOffloadingManager P} (calls : Calls allowed before after) :
    Calls wider before after := by
  induction calls with
  | refl => exact .refl
  | tail _ step ih =>
      obtain ⟨event, isAllowed, call⟩ := step
      exact ih.tail ⟨event, imply _ event isAllowed, call⟩

theorem calls_one {before after : CPUOffloadingManager P} {event : CpuEvent}
    (call : Call before event after) : Calls Anything before after :=
  .single ⟨event, trivial, call⟩

/-- The primary tier sees calls of the allowed kinds only. -/
abbrev Reaches (allowed : CPUOffloadingManager P → CpuEvent → Prop)
    (manager after : TieringOffloadingManager P) : Prop :=
  Calls allowed manager.primaryTier after.primaryTier

theorem reaches_same {allowed : CPUOffloadingManager P → CpuEvent → Prop}
    {manager after : TieringOffloadingManager P}
    (same : after.primaryTier = manager.primaryTier) : Reaches allowed manager after := by
  rw [Reaches, same]

section Polling

variable {manager after : TieringOffloadingManager P}

theorem suppress_reaches (keys : List OffloadKey) :
    Reaches Settling manager (manager.suppressPromotionFailures keys) := by
  apply reaches_same
  unfold TieringOffloadingManager.suppressPromotionFailures
  split <;> rfl

theorem complete_write_reaches {keys : List OffloadKey} {success : Bool}
    (written : manager.completeWrite keys success = .ok after) :
    Reaches Settling manager after := by
  obtain ⟨primary, completed, done⟩ := bind_eq_ok.mp written
  cases done
  exact .single ⟨.completeStore keys success, trivial, .written completed⟩

theorem complete_promotion_reaches {job : TransferJob} {result : JobResult}
    (completed : manager.completePromotion job result = .ok after) :
    Reaches Settling manager after := by
  obtain ⟨⟨stored, failed⟩, _, completed⟩ := bind_eq_ok.mp completed
  obtain ⟨first, firstOk, completed⟩ := bind_eq_ok.mp completed
  obtain ⟨second, secondOk, completed⟩ := bind_eq_ok.mp completed
  have both : Reaches Settling manager second :=
    (complete_write_reaches firstOk).trans (complete_write_reaches secondOk)
  dsimp only at completed
  split at completed
  · cases completed
    exact both
  · cases completed
    have suppressed := @suppress_reaches P _ ((second.forgetPromotionFailures stored).fillLedger
      (TieringOffloadingManager.reservationsOf job stored)) failed
    exact both.trans suppressed

theorem consume_result_reaches {tierIdx : Nat} {result : JobResult}
    (consumed : manager.consumeResult tierIdx result = .ok after) :
    Reaches Settling manager after := by
  unfold TieringOffloadingManager.consumeResult at consumed
  split at consumed
  · cases consumed
    exact reaches_same rfl
  · cases found : manager.jobs.get? result.jobId with
    | none => simp [found] at consumed
    | some job =>
        simp only [found] at consumed
        obtain ⟨_, _, consumed⟩ := bind_eq_ok.mp consumed
        split at consumed
        · have completed := complete_promotion_reaches consumed
          exact completed
        · obtain ⟨primary, unpinned, done⟩ := bind_eq_ok.mp consumed
          cases done
          exact .single ⟨.completeLoad job.transferJob.keys, trivial, .unpinned unpinned⟩

theorem consume_results_reaches (results : List JobResult) {tierIdx : Nat}
    {manager : TieringOffloadingManager P}
    (consumed : manager.consumeResults tierIdx results = .ok after) :
    Reaches Settling manager after := by
  induction results generalizing manager with
  | nil =>
      cases consumed
      exact .refl
  | cons result rest ih =>
      obtain ⟨middle, first, later⟩ := bind_eq_ok.mp consumed
      exact (consume_result_reaches first).trans (ih later)

theorem poll_tiers_reaches (tiers : List Nat) {manager : TieringOffloadingManager P}
    (polled : manager.pollTiers tiers = .ok after) : Reaches Settling manager after := by
  induction tiers generalizing manager with
  | nil =>
      cases polled
      exact .refl
  | cons tierIdx rest ih =>
      obtain ⟨middle, first, later⟩ := bind_eq_ok.mp polled
      exact (consume_results_reaches _ first).trans (ih later)

theorem retract_promotion_reaches {jobId : JobId}
    (retracted : manager.retractPromotion jobId = .ok after) :
    Reaches Settling manager after := by
  unfold TieringOffloadingManager.retractPromotion at retracted
  cases found : manager.jobs.get? jobId with
  | none =>
      simp only [found] at retracted
      cases retracted
      exact reaches_same rfl
  | some job =>
      simp only [found] at retracted
      obtain ⟨written, writeOk, done⟩ := bind_eq_ok.mp retracted
      cases done
      have wrote := complete_write_reaches writeOk
      exact wrote.trans (suppress_reaches _)

theorem retract_promotions_reaches (jobIds : List JobId) {manager : TieringOffloadingManager P}
    (retracted : manager.retractPromotions jobIds = .ok after) :
    Reaches Settling manager after := by
  induction jobIds generalizing manager with
  | nil =>
      cases retracted
      exact .refl
  | cons jobId rest ih =>
      obtain ⟨middle, first, later⟩ := bind_eq_ok.mp retracted
      exact (retract_promotion_reaches first).trans (ih later)

theorem retract_store_pends_reaches (groups : List (JobId × List OffloadKey))
    {manager : TieringOffloadingManager P}
    (retracted : manager.retractStorePends groups = .ok after) :
    Reaches Settling manager after := by
  induction groups generalizing manager with
  | nil =>
      cases retracted
      exact .refl
  | cons group rest ih =>
      obtain ⟨middle, written, later⟩ := bind_eq_ok.mp retracted
      have retracted := ih later
      exact (complete_write_reaches written).trans retracted

theorem expire_store_pends_reaches (expired : manager.expireStaleStorePends = .ok after) :
    Reaches Settling manager after := by
  unfold TieringOffloadingManager.expireStaleStorePends at expired
  split at expired
  · cases expired
    exact .refl
  · dsimp only at expired
    obtain ⟨owners, groups, disarmed, _⟩ := TieringPolling.disarm_expired_spec
      (manager.expiredStorePends manager.answer.now) manager.next OrderedMap.empty
    rw [disarmed] at expired
    have retracted := retract_store_pends_reaches _ expired
    exact retracted

theorem process_reaches (processed : manager.processFinishedJobs = .ok after) :
    Reaches Settling manager after := by
  obtain ⟨polled, pollOk, processed⟩ := bind_eq_ok.mp processed
  obtain ⟨promoted, promoteOk, expired⟩ := bind_eq_ok.mp processed
  have retracted : Reaches Settling polled promoted := by
    unfold TieringOffloadingManager.expireStalePromotions at promoteOk
    split at promoteOk
    · cases promoteOk
      exact .refl
    · have retracted := retract_promotions_reaches _ promoteOk
      exact retracted
  exact (poll_tiers_reaches _ pollOk).trans
    (retracted.trans (expire_store_pends_reaches expired))

theorem maybe_process_reaches (processed : manager.maybeProcessFinishedJobs = .ok after) :
    Reaches Settling manager after := by
  unfold TieringOffloadingManager.maybeProcessFinishedJobs at processed
  split at processed
  · cases processed
    exact .refl
  · have processing := process_reaches processed
    exact processing

theorem settled_anything (settled : Reaches Settling manager after) :
    Reaches Anything manager after := calls_mono (fun _ _ _ => trivial) settled

end Polling

section Lookups

variable {manager after : TieringOffloadingManager P} {key : OffloadKey} {reqContext : ReqContext}
  {excludeTierIdx : Option Nat} {result : LookupResult}

omit [CachePolicy P] in
theorem filter_tier_hit_primary (startTime : Rat) (answer : LookupResult) :
    (manager.filterTierHit key startTime answer).2.primaryTier = manager.primaryTier := by
  unfold TieringOffloadingManager.filterTierHit
  split
  · split
    · rfl
    · split <;> rfl
  · rfl

/-- A tier that the request may load from answers `HIT` for the key, and no promotion of the
key failed lately. -/
def tierHolds (key : OffloadKey) (reqContext : ReqContext) (excludeTierIdx : Option Nat) :
    TieringOffloadingManager P → List (Nat × TierInfo) → Bool
  | _, [] => false
  | manager, (tierIdx, tier) :: rest =>
      if excludeTierIdx = some tierIdx ∨
          ¬reqContext.loadTierFilter.allows tier.medium tier.locality then
        tierHolds key reqContext excludeTierIdx manager rest
      else
        let answered := manager.next.filterTierHit key manager.answer.now manager.answer.lookup
        decide (answered.1 = .hit) || tierHolds key reqContext excludeTierIdx answered.2 rest

/-- The store that the lookup of a key is about to make: the primary tier lacks the key, a
tier holds it, and the primary tier accepts it. -/
def promotionStore (manager : TieringOffloadingManager P) (key : OffloadKey)
    (reqContext : ReqContext) (excludeTierIdx : Option Nat := none) :
    Option PrepareStoreOutput :=
  match manager.maybeProcessFinishedJobs with
  | .error _ => none
  | .ok polled =>
      match polled.primaryTier.lookup key with
      | .ok (.miss, primary) =>
          let looked := polled.withPrimary primary
          let tiers := (List.range looked.secondaryTiers.length).zip looked.secondaryTiers
          if tierHolds key reqContext excludeTierIdx looked tiers then
            (primary.prepareStore [key] false).toOption.bind Prod.fst
          else none
      | _ => none

/-- The tiers leave the primary tier alone unless one of them has the key; then the key is
stored, and pending if the store is accepted. -/
theorem lookup_tiers_reaches (tiers : List (Nat × TierInfo))
    {manager : TieringOffloadingManager P} {anyRetry : Bool}
    (looked : manager.lookupTiers key reqContext excludeTierIdx anyRetry tiers =
      .ok (result, after)) :
    result ≠ .hit ∧ if tierHolds key reqContext excludeTierIdx manager tiers then
      ∃ output, manager.primaryTier.prepareStore [key] false = .ok (output, after.primaryTier) ∧
        (output.isSome = true ↔ result = .hitPending)
      else after.primaryTier = manager.primaryTier ∧ result ≠ .hitPending := by
  induction tiers generalizing manager anyRetry with
  | nil =>
      cases looked
      cases anyRetry <;> simp [tierHolds]
  | cons tier rest ih =>
      unfold TieringOffloadingManager.lookupTiers at looked
      unfold tierHolds
      split at looked
      · rename_i left
        rw [if_pos left]
        exact ih looked
      · rename_i asked
        rw [if_neg asked]
        have filtered : (manager.next.filterTierHit key manager.answer.now
            manager.answer.lookup).2.primaryTier = manager.primaryTier :=
          filter_tier_hit_primary _ _
        generalize manager.next.filterTierHit key manager.answer.now manager.answer.lookup =
          answered at looked filtered ⊢
        obtain ⟨answer, middle⟩ := answered
        cases answer with
        | hit =>
            obtain ⟨⟨promoted, last⟩, initiated, done⟩ := bind_eq_ok.mp looked
            cases done
            obtain ⟨⟨output, primary⟩, prepared, done⟩ := bind_eq_ok.mp initiated
            rw [show middle.primaryTier = manager.primaryTier from filtered] at prepared
            simp only [decide_true, Bool.true_or, if_true]
            cases output with
            | none =>
                cases done
                exact ⟨by simp, none, prepared, by simp⟩
            | some output =>
                cases done
                exact ⟨by simp, some output, prepared, by simp⟩
        | miss => exact filtered ▸ ih looked
        | hitPending => exact filtered ▸ ih looked
        | retry => exact filtered ▸ ih looked

/-- A lookup polls, looks the key up, and on a miss may store it. -/
structure Looked (manager : TieringOffloadingManager P) (key : OffloadKey)
    (result : LookupResult) (after : TieringOffloadingManager P)
    (polled : TieringOffloadingManager P) (primary : CPUOffloadingManager P)
    (stored : Option PrepareStoreOutput) : Prop where
  polls : manager.maybeProcessFinishedJobs = .ok polled
  looks : ∃ answer, polled.primaryTier.lookup key = .ok (answer, primary) ∧
    (result = .hit ↔ answer = .hit)
  stores : (after.primaryTier = primary ∧ stored = none ∧
      (result = .hitPending → polled.primaryTier.lookupResult key = .hitPending)) ∨
    primary.prepareStore [key] false = .ok (stored, after.primaryTier) ∧
      (stored.isSome = true ↔ result = .hitPending) ∧
      polled.primaryTier.lookupResult key = .miss

theorem lookup_looked
    (looked : manager.lookup key reqContext excludeTierIdx = .ok (result, after)) :
    ∃ polled primary, Looked manager key result after polled primary
      (promotionStore manager key reqContext excludeTierIdx) := by
  obtain ⟨polled, pollOk, looked⟩ := bind_eq_ok.mp looked
  obtain ⟨⟨answer, primary⟩, primaryOk, looked⟩ := bind_eq_ok.mp looked
  have answered := (lookup_spec primaryOk).2
  unfold promotionStore
  rw [pollOk]
  dsimp only
  rw [primaryOk]
  refine ⟨polled, primary, pollOk, ⟨answer, primaryOk, ?_⟩, ?_⟩
  · cases answer with
    | hit =>
        cases looked
        exact Iff.rfl
    | hitPending =>
        cases looked
        simp
    | miss => simpa using (lookup_tiers_reaches _ looked).1
    | retry => simpa using (lookup_tiers_reaches _ looked).1
  · cases answer with
    | hit =>
        cases looked
        exact .inl ⟨rfl, rfl, by simp⟩
    | hitPending =>
        cases looked
        exact .inl ⟨rfl, rfl, fun _ => answered.symm⟩
    | miss =>
        have effect := (lookup_tiers_reaches _ looked).2
        dsimp only
        split at effect
        · rename_i held
          obtain ⟨output, prepared, accepted⟩ := effect
          have same : primary.prepareStore [key] false = .ok (output, after.primaryTier) :=
            prepared
          rw [if_pos held, same]
          exact .inr ⟨rfl, accepted, answered.symm⟩
        · rename_i missed
          rw [if_neg missed]
          exact .inl ⟨effect.1, rfl, fun pending => absurd pending effect.2⟩
    | retry =>
        exfalso
        unfold CPUOffloadingManager.lookupResult at answered
        split at answered
        · cases answered
        · split at answered <;> cases answered

theorem lookup_reaches
    (looked : manager.lookup key reqContext excludeTierIdx = .ok (result, after)) :
    Reaches Anything manager after := by
  obtain ⟨polled, primary, spec⟩ := lookup_looked looked
  obtain ⟨answer, primaryOk, _⟩ := spec.looks
  have first : Calls Anything manager.primaryTier primary :=
    (settled_anything (maybe_process_reaches spec.polls)).trans (calls_one (.looked primaryOk))
  rcases spec.stores with ⟨same, _⟩ | ⟨prepared, _⟩
  · rw [Reaches, same]
    exact first
  · exact first.trans (calls_one (.reserved prepared))

end Lookups

section Operations

variable {manager after : TieringOffloadingManager P} {reqContext : ReqContext}

omit [CachePolicy P] in
theorem call_all_primary (tierCall : TierCall) :
    (manager.callAll tierCall).primaryTier = manager.primaryTier := by
  unfold TieringOffloadingManager.callAll
  induction List.range manager.secondaryTiers.length generalizing manager with
  | nil => rfl
  | cons tierIdx rest ih => exact ih.trans rfl

theorem touch_reaches (keys : List OffloadKey) : Reaches Anything manager (manager.touch keys) := by
  rw [Reaches, TieringOffloadingManager.touch, call_all_primary]
  exact calls_one (.touched manager.primaryTier keys)

theorem create_store_job_reaches {keys : List OffloadKey} {tierIdx : Nat} {job : TransferJob}
    (created : manager.createStoreJob keys reqContext tierIdx = .ok (job, after)) :
    Reaches Anything manager after := by
  obtain ⟨⟨blockIds, primary⟩, loaded, done⟩ := bind_eq_ok.mp created
  cases done
  exact calls_one (.pinned loaded)

theorem cascade_reaches (tiers : List Nat) {manager : TieringOffloadingManager P}
    {keys : List OffloadKey} (cascaded : manager.cascade keys reqContext tiers = .ok after) :
    Reaches Anything manager after := by
  induction tiers generalizing manager with
  | nil =>
      cases cascaded
      exact .refl
  | cons tierIdx rest ih =>
      obtain ⟨⟨job, middle⟩, created, later⟩ := bind_eq_ok.mp cascaded
      have rested := ih later
      exact (create_store_job_reaches created).trans rested

theorem ready_keys_reaches (keys : List OffloadKey) {manager : TieringOffloadingManager P}
    {ready : List OffloadKey} (found : manager.readyKeys keys = .ok (ready, after)) :
    Reaches Anything manager after := by
  induction keys generalizing manager ready with
  | nil =>
      cases found
      exact .refl
  | cons key rest ih =>
      obtain ⟨⟨result, primary⟩, looked, found⟩ := bind_eq_ok.mp found
      obtain ⟨⟨others, last⟩, later, done⟩ := bind_eq_ok.mp found
      cases done
      have rested := ih later
      exact (calls_one (.looked looked)).trans rested

theorem cascade_existing_reaches {keys : List OffloadKey} {tiers : List Nat}
    (cascaded : manager.cascadeExistingBlocksToRequestLevelTiers keys reqContext tiers =
      .ok after) : Reaches Anything manager after := by
  obtain ⟨⟨ready, middle⟩, found, cascaded⟩ := bind_eq_ok.mp cascaded
  have looked := ready_keys_reaches keys found
  by_cases empty : ready = []
  · simp only [empty, if_true] at cascaded
    cases cascaded
    exact looked
  · simp only [empty, if_false] at cascaded
    exact looked.trans (cascade_reaches _ cascaded)

omit [CachePolicy P] in
theorem forward_finished_primary (manager : TieringOffloadingManager P)
    (excludeTierIdx : Option Nat) :
    (manager.forwardRequestFinished reqContext excludeTierIdx).primaryTier =
      manager.primaryTier :=
  (forward_finished_core manager reqContext excludeTierIdx).1.primary

omit [CachePolicy P] in
theorem finalize_primary {reqId : ReqId} {excludeTierIdx : Option Nat}
    (finalized : manager.maybeFinalizeRequest reqId excludeTierIdx = .ok after) :
    after.primaryTier = manager.primaryTier := by
  obtain ⟨state, _, finalized⟩ := bind_eq_ok.mp finalized
  split at finalized
  · cases finalized
    rfl
  · cases finalized
    exact forward_finished_primary manager excludeTierIdx

omit [CachePolicy P] in
theorem settle_request_primary {reqId : ReqId} (settled : manager.settleRequest reqId = .ok after) :
    after.primaryTier = manager.primaryTier := by
  obtain ⟨state, _, settled⟩ := bind_eq_ok.mp settled
  obtain ⟨_, _, finalized⟩ := bind_eq_ok.mp settled
  have same := finalize_primary finalized
  exact same

theorem complete_store_reaches {keys : List OffloadKey} {success : Bool}
    (completed : manager.completeStore keys reqContext success = .ok after) :
    Reaches Anything manager after := by
  obtain ⟨written, writeOk, completed⟩ := bind_eq_ok.mp completed
  have wrote := settled_anything (complete_write_reaches writeOk)
  dsimp only at completed
  split at completed
  · obtain ⟨cascaded, cascadeOk, settled⟩ := bind_eq_ok.mp completed
    have cascades := cascade_reaches _ cascadeOk
    rw [Reaches, settle_request_primary settled]
    exact wrote.trans cascades
  · rw [Reaches, settle_request_primary completed]
    exact wrote

omit [CachePolicy P] in
theorem new_request_primary (excludeTierIdx : Option Nat) :
    (manager.onNewRequest reqContext excludeTierIdx).2.primaryTier = manager.primaryTier := by
  show (manager.askPolicies excludeTierIdx _).2.primaryTier = _
  induction List.range manager.secondaryTiers.length generalizing manager with
  | nil => rfl
  | cons tierIdx rest ih =>
      unfold TieringOffloadingManager.askPolicies
      split
      · exact ih
      · exact @ih manager.next

omit [CachePolicy P] in
theorem request_finished_primary {excludeTierIdx : Option Nat}
    (finished : manager.onRequestFinished reqContext excludeTierIdx = .ok after) :
    after.primaryTier = manager.primaryTier := by
  obtain ⟨state, _, finished⟩ := bind_eq_ok.mp finished
  have same := finalize_primary finished
  exact same

theorem serve_call_reaches {tierIdx : Nat} {parentCall : ParentCall}
    (served : manager.serveCall tierIdx parentCall = .ok after) :
    Reaches Anything manager after := by
  cases parentCall with
  | onNewRequest reqContext =>
      cases served
      exact reaches_same (new_request_primary _)
  | lookup key reqContext =>
      obtain ⟨⟨result, last⟩, looked, done⟩ := bind_eq_ok.mp served
      cases done
      exact lookup_reaches looked
  | createStoreJob keys reqContext =>
      obtain ⟨⟨job, last⟩, created, done⟩ := bind_eq_ok.mp served
      cases done
      exact create_store_job_reaches created
  | onRequestFinished reqContext => exact reaches_same (request_finished_primary served)

theorem serve_calls_reaches (calls : List ParentCall) {manager : TieringOffloadingManager P}
    {tierIdx : Nat} (served : manager.serveCalls tierIdx calls = .ok after) :
    Reaches Anything manager after := by
  induction calls generalizing manager with
  | nil =>
      cases served
      exact .refl
  | cons parentCall rest ih =>
      obtain ⟨middle, first, later⟩ := bind_eq_ok.mp served
      exact (serve_call_reaches first).trans (ih later)

theorem serve_external_reaches (tiers : List Nat) {manager : TieringOffloadingManager P}
    (served : manager.serveExternalRequests tiers = .ok after) :
    Reaches Anything manager after := by
  induction tiers generalizing manager with
  | nil =>
      cases served
      exact .refl
  | cons tierIdx rest ih =>
      obtain ⟨middle, first, later⟩ := bind_eq_ok.mp served
      have calls := serve_calls_reaches _ first
      exact calls.trans (ih later)

theorem schedule_end_reaches {context : ScheduleEndContext}
    (ended : manager.onScheduleEnd context = .ok after) : Reaches Anything manager after := by
  obtain ⟨polled, pollOk, ended⟩ := bind_eq_ok.mp ended
  obtain ⟨served, serveOk, ended⟩ := bind_eq_ok.mp ended
  cases ended
  have flushed := (submit_all_frame (served.setProcessed false).queuedPromotions
    (served.setProcessed false)).1
  have servedCalls := serve_external_reaches _ serveOk
  have same : (served.setProcessed false).flushPendingPromotions.primaryTier =
      served.primaryTier := flushed
  rw [Reaches, call_all_primary, same]
  exact (settled_anything (maybe_process_reaches pollOk)).trans servedCalls

theorem prepare_store_reaches {keys : List OffloadKey} {output : Option PrepareStoreOutput}
    (prepared : manager.prepareStore keys reqContext = .ok (output, after)) :
    Reaches Anything manager after := by
  obtain ⟨polled, pollOk, prepared⟩ := bind_eq_ok.mp prepared
  obtain ⟨⟨result, primary⟩, primaryOk, prepared⟩ := bind_eq_ok.mp prepared
  have first : Calls Anything manager.primaryTier primary :=
    (settled_anything (maybe_process_reaches pollOk)).trans (calls_one (.reserved primaryOk))
  cases result with
  | none =>
      cases prepared
      exact first
  | some out =>
      obtain ⟨state, _, prepared⟩ := bind_eq_ok.mp prepared
      have samePrimary : (storedManager polled primary reqContext state
          out.keysToStore).primaryTier = primary := by
        unfold storedManager
        split
        · rfl
        · unfold TieringOffloadingManager.armStorePends
          split <;> rfl
      change (if _ then _ else _) = _ at prepared
      split at prepared
      · cases prepared
        show Calls Anything _ (storedManager polled primary reqContext state
          out.keysToStore).primaryTier
        rw [samePrimary]
        exact first
      · obtain ⟨cascaded, cascadeOk, done⟩ := bind_eq_ok.mp prepared
        cases done
        have cascades := cascade_existing_reaches cascadeOk
        have stored : Calls Anything manager.primaryTier (storedManager polled primary reqContext
            state out.keysToStore).primaryTier := samePrimary.symm ▸ first
        exact stored.trans cascades

theorem prepare_load_reaches {keys : List OffloadKey} {blockIds : List Nat}
    (loaded : manager.prepareLoad keys = .ok (blockIds, after)) :
    Reaches Anything manager after := by
  obtain ⟨⟨ids, primary⟩, pinned, done⟩ := bind_eq_ok.mp loaded
  cases done
  exact calls_one (.pinned pinned)

theorem complete_load_reaches {keys : List OffloadKey}
    (completed : manager.completeLoad keys = .ok after) : Reaches Anything manager after := by
  obtain ⟨primary, unpinned, done⟩ := bind_eq_ok.mp completed
  cases done
  exact calls_one (.unpinned unpinned)

theorem reset_cache_reaches (reset : manager.resetCache = .ok after) :
    Reaches Anything manager after := by
  obtain ⟨polled, processed, reset⟩ := bind_eq_ok.mp reset
  obtain ⟨_, _, reset⟩ := bind_eq_ok.mp reset
  cases reset
  generalize cleared_eq : ({ polled.withStorePends OrderedMap.empty OrderedMap.empty with
    pendingLoadSubmissions := OrderedMap.empty } : TieringOffloadingManager P) = cleared
  have same : cleared.resetRequests.primaryTier = polled.primaryTier := by
    rw [(reset_requests_core cleared).primary, ← cleared_eq]
    rfl
  have processing := settled_anything (process_reaches processed)
  rw [Reaches, call_all_primary, ← same] at processing
  exact processing.trans (calls_one (.reset _))

end Operations

/-- What every call of the CPU manager keeps of its policy, the connector keeps of the
policy of the primary tier. -/
theorem tracked_keeps [LawfulCachePolicy P] [TrackedPolicy P] :
    ManagerKeeps fun manager : TieringOffloadingManager P =>
      TrackedPolicy.Tracked manager.primaryTier.policy where
  lookup tracked call := calls_tracked tracked (lookup_reaches call)
  touch keys tracked := calls_tracked tracked (touch_reaches keys)
  prepareStore tracked call := calls_tracked tracked (prepare_store_reaches call)
  completeStore tracked call := calls_tracked tracked (complete_store_reaches call)
  prepareLoad tracked call := calls_tracked tracked (prepare_load_reaches call)
  completeLoad tracked call := calls_tracked tracked (complete_load_reaches call)
  onNewRequest reqContext tracked := by
    apply calls_tracked tracked
    exact @reaches_same P _ Anything _ _ (new_request_primary none)
  onRequestFinished tracked call := by
    apply calls_tracked tracked
    exact @reaches_same P _ Anything _ _ (request_finished_primary call)
  onScheduleEnd tracked call := calls_tracked tracked (schedule_end_reaches call)
  drainFlushJobIds tracked := tracked
  resetCache tracked call := calls_tracked tracked (reset_cache_reaches call)

end KvOffload.PrimaryCalls
