import KvOffload.TieringRuns

/-!
# Reports of store jobs

The pending-store count of a request is the number of its store jobs that are
still to be reported, over every run. With it, a successful report fails exactly
when it has to cascade a key that is no longer resident.
-/

namespace KvOffload.StoreReports

open KvOffload KvOffload.Base KvOffload.PolicyInterface KvOffload.CpuManager
open KvOffload.CpuPool KvOffload.CpuManagerSpec KvOffload.Tiering KvOffload.TieringSlots
open KvOffload.TieringPolling KvOffload.TieringOperations KvOffload.TieringRuns

set_option autoImplicit false

section Accounts

def pendingStores (reqState : OrderedMap ReqId RequestState) (reqId : ReqId) : Nat :=
  (reqState.get? reqId).elim 0 RequestState.pendingPrimaryStores

def openStores (stores : List StoreJob) (reqId : ReqId) : Nat :=
  stores.countP fun job => job.reqContext.reqId = reqId

theorem pending_set (reqState : OrderedMap ReqId RequestState) (reqId other : ReqId)
    (state : RequestState) : pendingStores (reqState.set reqId state) other =
      if other = reqId then state.pendingPrimaryStores else pendingStores reqState other := by
  unfold pendingStores
  rw [OrderedMap.get_set]
  split <;> rfl

theorem pending_erase (reqState : OrderedMap ReqId RequestState) (reqId other : ReqId) :
    pendingStores (reqState.erase reqId) other =
      if other = reqId then 0 else pendingStores reqState other := by
  unfold pendingStores
  rw [OrderedMap.get_erase]
  split <;> rfl

theorem pending_settled {reqState : OrderedMap ReqId RequestState} {reqId : ReqId}
    {state : RequestState} (found : reqState.get? reqId = some state) (other : ReqId) :
    pendingStores (settledRequests reqState reqId state) other =
      pendingStores reqState other - if other = reqId then 1 else 0 := by
  have counted : pendingStores reqState reqId = state.pendingPrimaryStores := by
    simp [pendingStores, found]
  unfold settledRequests
  by_cases same : other = reqId
  · subst same
    split
    · rename_i last
      rw [pending_erase, if_pos rfl, if_pos rfl, counted, last.2]
    · rw [pending_set, if_pos rfl, if_pos rfl, counted]
  · split
    · rw [pending_erase, if_neg same, pending_set, if_neg same, Nat.sub_zero]
    · rw [pending_set, if_neg same, Nat.sub_zero]

theorem pending_finished {reqState : OrderedMap ReqId RequestState} {reqId : ReqId}
    {state : RequestState} (found : reqState.get? reqId = some state) (other : ReqId) :
    pendingStores (finishedRequests reqState reqId state) other =
      pendingStores reqState other := by
  have counted : pendingStores reqState reqId = state.pendingPrimaryStores := by
    simp [pendingStores, found]
  unfold finishedRequests
  by_cases same : other = reqId
  · subst same
    split
    · rename_i none
      rw [pending_erase, if_pos rfl, counted, none]
    · rw [pending_set, if_pos rfl, counted]
  · split
    · rw [pending_erase, if_neg same, pending_set, if_neg same]
    · rw [pending_set, if_neg same]

/-- The tiers never change the count of a request that is not their own. -/
theorem pending_served {foreign closing : ReqId → Prop}
    {first second : OrderedMap ReqId RequestState}
    (served : Served foreign closing first second) {reqId : ReqId} (own : ¬foreign reqId) :
    pendingStores second reqId = pendingStores first reqId := by
  induction served with
  | refl => rfl
  | opened _ opener empty ih =>
      rw [pending_set, if_neg]
      · exact ih
      · rintro rfl
        exact own opener
  | finished _ _ known ih =>
      rw [pending_finished known]
      exact ih

theorem open_erase {stores : List StoreJob} {index : Nat} {job : StoreJob}
    (found : stores[index]? = some job) (reqId : ReqId) :
    openStores (stores.eraseIdx index) reqId =
      openStores stores reqId - if reqId = job.reqContext.reqId then 1 else 0 := by
  induction stores generalizing index with
  | nil => simp at found
  | cons first rest ih =>
      cases index with
      | zero =>
          simp only [List.getElem?_cons_zero, Option.some.injEq] at found
          subst found
          simp only [openStores, List.eraseIdx_cons_zero, List.countP_cons, decide_eq_true_eq,
            eq_comm (a := reqId)]
          omega
      | succ index =>
          rw [List.getElem?_cons_succ] at found
          have counted : reqId = job.reqContext.reqId → 0 < openStores rest reqId := by
            rintro rfl
            exact List.countP_pos_iff.mpr ⟨job, List.mem_of_getElem? found, by simp⟩
          have step := ih found
          simp only [openStores, List.eraseIdx_cons_succ, List.countP_cons] at step counted ⊢
          by_cases same : reqId = job.reqContext.reqId
          · have positive := counted same
            rw [if_pos same] at step ⊢
            omega
          · rw [if_neg same] at step ⊢
            omega

end Accounts

variable {P : Type} [CachePolicy P]

/-- The counts of the requests are exact; `foreign` ids are those of the tiers. -/
structure AccountInv [LawfulCachePolicy P] (foreign : ReqId → Bool) (tiers : List TierInfo)
    (run : TieringRun P) : Prop where
  pool : PoolInv run.manager.primaryTier
  tiers : run.manager.secondaryTiers = tiers
  opens : AnswersOpen (fun reqId => foreign reqId = true) run.manager.answers
  own : ∀ job ∈ run.stores, foreign job.reqContext.reqId = false
  counted : ∀ reqId, foreign reqId = false →
    pendingStores run.manager.reqState reqId = openStores run.stores reqId

section Steps

variable [LawfulCachePolicy P] {foreign : ReqId → Bool} {tiers : List TierInfo}
  {run : TieringRun P}

theorem account_of_world {manager : TieringOffloadingManager P} {stores : List StoreJob}
    (inv : AccountInv foreign tiers run) (pool : PoolInv manager.primaryTier)
    (world : worldOf manager = worldOf run.manager)
    (own : ∀ job ∈ stores, foreign job.reqContext.reqId = false)
    (counted : ∀ reqId, foreign reqId = false →
      pendingStores manager.reqState reqId = openStores stores reqId) :
    AccountInv foreign tiers ⟨manager, stores⟩ :=
  ⟨pool, (congrArg Prod.fst world).trans inv.tiers,
    answers_of_world world ▸ inv.opens, own, counted⟩

theorem account_of_requests {manager : TieringOffloadingManager P}
    (inv : AccountInv foreign tiers run) (pool : PoolInv manager.primaryTier)
    (world : worldOf manager = worldOf run.manager)
    (counted : ∀ reqId, foreign reqId = false →
      pendingStores manager.reqState reqId = pendingStores run.manager.reqState reqId) :
    AccountInv foreign tiers (run.withManager manager) :=
  account_of_world inv pool world inv.own fun reqId own =>
    (counted reqId own).trans (inv.counted reqId own)

theorem account_of_kept {manager : TieringOffloadingManager P}
    (inv : AccountInv foreign tiers run) (kept : Kept run.manager manager) :
    AccountInv foreign tiers (run.withManager manager) :=
  account_of_requests inv (kept.pool inv.pool) kept.world fun _ _ => by rw [kept.reqState]

theorem prepared_keeps_account {reqContext : ReqContext} {output : PrepareStoreOutput}
    {manager : TieringOffloadingManager P} (inv : AccountInv foreign tiers run)
    (own : foreign reqContext.reqId = false)
    (prepared : StorePrepared run.manager reqContext.reqId (some output) manager) :
    AccountInv foreign tiers (run.accept output reqContext manager) := by
  obtain ⟨state, known, reqState⟩ := prepared.accepted output rfl
  unfold TieringRun.accept
  split
  · rename_i empty
    rw [if_pos empty] at reqState
    exact account_of_requests inv (prepared.pool inv.pool) prepared.world
      fun _ _ => by rw [reqState]
  · rename_i nonempty
    rw [if_neg nonempty] at reqState
    refine account_of_world inv (prepared.pool inv.pool) prepared.world ?_ ?_
    · intro job member
      rcases List.mem_cons.mp member with rfl | before
      · exact own
      · exact inv.own job before
    · intro reqId isOwn
      have before := inv.counted reqId isOwn
      rw [reqState, pending_set]
      simp only [openStores, List.countP_cons, decide_eq_true_eq] at before ⊢
      by_cases same : reqId = reqContext.reqId
      · subst same
        rw [if_pos rfl, if_pos rfl, ← before]
        simp [pendingStores, known]
      · rw [if_neg same, if_neg fun equal => same equal.symm]
        exact before

theorem completed_keeps_account {index : Nat} {job : StoreJob} {success : Bool}
    {manager : TieringOffloadingManager P} (inv : AccountInv foreign tiers run)
    (found : run.stores[index]? = some job)
    (completed : run.completeJob job success = .ok manager) :
    AccountInv foreign tiers ⟨manager, run.stores.eraseIdx index⟩ := by
  have spec := complete_store_completed completed
  have reported : (run.reported job success).primaryTier = run.manager.primaryTier ∧
      worldOf (run.reported job success) = worldOf run.manager ∧
      (run.reported job success).reqState = run.manager.reqState := by
    unfold TieringRun.reported
    split <;> exact ⟨rfl, rfl, rfl⟩
  obtain ⟨primary, world, requests⟩ := reported
  obtain ⟨state, known, _, reqState⟩ := spec.requests
  rw [requests] at known reqState
  refine account_of_world inv (spec.pool (primary ▸ inv.pool)) (spec.world.trans world) ?_ ?_
  · exact fun other kept => inv.own other (List.mem_of_mem_eraseIdx kept)
  · intro reqId own
    rw [reqState, pending_settled known, open_erase found, inv.counted reqId own]

theorem event_keeps_account {allowed : TieringRun P → StoreJob → Prop} {next : TieringRun P}
    {event : TieringEvent} (inv : AccountInv foreign tiers run)
    (permitted : TieringRun.Permitted foreign allowed run event)
    (applied : run.apply event = .ok next) : AccountInv foreign tiers next := by
  cases event with
  | newRequest reqContext =>
      cases applied
      obtain ⟨same, state, empty, _, reqState⟩ := new_request_spec run.manager reqContext none
      refine account_of_requests inv (same.primary ▸ inv.pool) same.world ?_
      intro reqId own
      rw [reqState, pending_set]
      split
      · rename_i equal
        have absent := Option.isNone_iff_eq_none.mp permitted.2
        simp [equal, pendingStores, absent, empty]
      · rfl
  | lookup key reqContext =>
      obtain ⟨⟨result, manager⟩, looked, done⟩ := bind_eq_ok.mp applied
      cases done
      exact account_of_kept inv (lookup_kept looked)
  | prepareStore keys reqContext =>
      obtain ⟨⟨output, manager⟩, prepared, done⟩ := bind_eq_ok.mp applied
      have spec := prepare_store_prepared permitted.2 prepared
      cases output with
      | none =>
          cases done
          exact account_of_requests inv (spec.pool inv.pool) spec.world
            fun _ _ => by rw [spec.refused rfl]
      | some output =>
          cases done
          exact prepared_keeps_account inv permitted.1 spec
  | completeStore index success =>
      cases found : run.stores[index]? with
      | none =>
          simp only [TieringRun.apply, found] at applied
          cases applied
          exact inv
      | some job =>
          simp only [TieringRun.apply, found] at applied
          obtain ⟨manager, completed, done⟩ := bind_eq_ok.mp applied
          cases done
          exact completed_keeps_account inv found completed
  | prepareLoad keys =>
      obtain ⟨⟨blockIds, manager⟩, prepared, done⟩ := bind_eq_ok.mp applied
      cases done
      obtain ⟨primary, loaded, finished⟩ := bind_eq_ok.mp prepared
      cases finished
      exact account_of_kept inv (pin_kept loaded)
  | completeLoad keys =>
      obtain ⟨manager, completed, done⟩ := bind_eq_ok.mp applied
      cases done
      obtain ⟨primary, unpinned, finished⟩ := bind_eq_ok.mp completed
      cases finished
      exact account_of_kept inv (unpin_kept unpinned)
  | touch keys =>
      cases applied
      exact account_of_kept inv (touch_kept run.manager keys)
  | requestFinished reqContext =>
      obtain ⟨manager, finished, done⟩ := bind_eq_ok.mp applied
      cases done
      obtain ⟨same, state, known, reqState⟩ := request_finished_spec finished
      refine account_of_requests inv (same.primary ▸ inv.pool) same.world ?_
      intro reqId _
      rw [reqState, pending_finished known]
  | scheduleEnd context =>
      obtain ⟨manager, ended, done⟩ := bind_eq_ok.mp applied
      cases done
      have served := schedule_end_by inv.opens (answers_close_any _) ended
      refine account_of_requests inv (served.pool inv.pool) served.world ?_
      exact fun reqId own => pending_served served.requests (by simp [own])
  | drainFlushJobIds =>
      cases applied
      exact account_of_kept inv (drain_kept run.manager)
  | resetCache =>
      obtain ⟨manager, reset, done⟩ := bind_eq_ok.mp applied
      cases done
      obtain ⟨_, pool, world, zero⟩ := reset_cache_reset reset
      refine account_of_world inv pool world (by simp) fun reqId _ => ?_
      cases found : manager.reqState.get? reqId with
      | none => simp [pendingStores, found, openStores]
      | some state => simp [pendingStores, found, openStores, zero reqId state found]

theorem reaches_account {policy : P} (policyInv : LawfulCachePolicy.Inv policy)
    (empty : ∀ key, CachePolicy.get policy key = none)
    {allowed : TieringRun P → StoreJob → Prop} {primaryParams : CpuManagerParams}
    {params : TieringParams} {answers : Nat → TierAnswer}
    (opens : AnswersOpen (fun reqId => foreign reqId = true) answers)
    (reaches : Reaches policy foreign allowed primaryParams params tiers answers run) :
    AccountInv foreign tiers run := by
  obtain ⟨pool, _⟩ := new_spec primaryParams policy policyInv empty
  have initial : AccountInv foreign tiers
      (TieringRun.start policy primaryParams params tiers answers) :=
    ⟨pool, rfl, opens, by simp [TieringRun.start], fun _ _ => rfl⟩
  exact EventRuns.reaches_invariant
    (fun _ _ _ inv permitted applied => event_keeps_account inv permitted applied)
    initial reaches

end Steps

section Reports

variable [LawfulCachePolicy P]

omit [LawfulCachePolicy P] in
theorem published_hit {current : OffloadKey → Option BlockStatus} {keys : List OffloadKey}
    {key : OffloadKey} (member : key ∈ keys) :
    (∃ block, published current keys key = some block ∧ 0 ≤ block.refCnt) ↔
      (current key).isSome = true := by
  cases found : current key with
  | none => simp [published, found]
  | some block =>
      by_cases pending : block.refCnt < 0
      · simp [published, found, member, pending]
      · simp [published, found, pending, not_lt.mp pending]

/-- With every key ready the cascade submits exactly these keys to each tier. -/
theorem cascade_ok (tiers : List Nat) {manager : TieringOffloadingManager P}
    {keys : List OffloadKey} (reqContext : ReqContext) (pool : PoolInv manager.primaryTier)
    (ready : ∀ key ∈ keys, manager.primaryTier.lookupResult key = .hit) :
    ∃ after calls, manager.cascade keys reqContext tiers = .ok after ∧
      after.tierCalls = manager.tierCalls ++ calls ∧
      (∀ call ∈ calls, ∃ job, call.2 = .submitStore job ∧ job.keys = keys) ∧
      ∀ key ∈ keys, after.primaryTier.lookupResult key = .hit := by
  induction tiers generalizing manager with
  | nil => exact ⟨manager, [], rfl, by simp, by simp, ready⟩
  | cons tierIdx rest ih =>
      obtain ⟨blockIds, primary, loaded, pinnedPool, _, get⟩ :=
        prepare_load_ok keys pool fun key member =>
          (lookup_result_hit_iff _ _).mp (ready key member)
      let job : TransferJob :=
        { jobId := manager.jobIdCounter
          keys := keys
          blockIds := blockIds
          isPromotion := false
          reqContext := reqContext
          reservations := [] }
      let registered := ((manager.withPrimary primary).nextJobId.registerJob job tierIdx).call
        tierIdx (.submitStore job)
      have stillReady : ∀ key ∈ keys, registered.primaryTier.lookupResult key = .hit := by
        intro key member
        obtain ⟨block, bound, nonneg⟩ := (lookup_result_hit_iff _ _).mp (ready key member)
        refine (lookup_result_hit_iff _ _).mpr ⟨block.withRefCnt (block.refCnt + keys.count key),
          ?_, ?_⟩
        · show primary.get key = _
          rw [get, shifted, bound]
          rfl
        · rw [with_ref_cnt_ref_cnt]
          omega
      obtain ⟨after, calls, cascaded, tierCalls, submitted, hits⟩ :=
        @ih registered pinnedPool stillReady
      refine ⟨after, (tierIdx, .submitStore job) :: calls, ?_, ?_, ?_, hits⟩
      · simp only [TieringOffloadingManager.cascade, TieringOffloadingManager.createStoreJob,
          loaded, ok_bind]
        exact cascaded
      · rw [tierCalls]
        exact List.append_assoc _ [(tierIdx, .submitStore job)] calls
      · intro call member
        rcases List.mem_cons.mp member with rfl | later
        · exact ⟨job, rfl, rfl⟩
        · exact submitted call later

/-- The first tier's job pins every key. -/
theorem cascade_ready {tierIdx : Nat} {rest : List Nat}
    {manager after : TieringOffloadingManager P} {keys : List OffloadKey}
    {reqContext : ReqContext} (pool : PoolInv manager.primaryTier)
    (cascaded : manager.cascade keys reqContext (tierIdx :: rest) = .ok after) :
    ∀ key ∈ keys, ∃ block, manager.primaryTier.get key = some block ∧ 0 ≤ block.refCnt := by
  obtain ⟨_, created, _⟩ := bind_eq_ok.mp cascaded
  obtain ⟨_, loaded, _⟩ := bind_eq_ok.mp created
  exact prepare_load_ready keys pool loaded

omit [LawfulCachePolicy P] [CachePolicy P] in
theorem forward_finished_calls (manager : TieringOffloadingManager P) (reqContext : ReqContext)
    (excludeTierIdx : Option Nat) :
    ∃ calls, (manager.forwardRequestFinished reqContext excludeTierIdx).tierCalls =
        manager.tierCalls ++ calls ∧
      ∀ call ∈ calls, call.2 = .onRequestFinished reqContext := by
  unfold TieringOffloadingManager.forwardRequestFinished
  induction List.range manager.secondaryTiers.length generalizing manager with
  | nil => exact ⟨[], by simp, by simp⟩
  | cons tierIdx rest ih =>
      rw [List.foldl_cons]
      split
      · exact ih manager
      · obtain ⟨calls, appended, forwarded⟩ :=
          ih (manager.call tierIdx (.onRequestFinished reqContext))
        refine ⟨(tierIdx, .onRequestFinished reqContext) :: calls, ?_, ?_⟩
        · rw [appended]
          exact List.append_assoc _ [(tierIdx, .onRequestFinished reqContext)] calls
        · intro call member
          rcases List.mem_cons.mp member with rfl | later
          · rfl
          · exact forwarded call later

omit [LawfulCachePolicy P] [CachePolicy P] in
theorem settle_calls {manager after : TieringOffloadingManager P} {reqId : ReqId}
    (settled : manager.settleRequest reqId = .ok after) :
    ∃ calls reqContext, after.tierCalls = manager.tierCalls ++ calls ∧
      ∀ call ∈ calls, call.2 = .onRequestFinished reqContext := by
  obtain ⟨state, _, settled⟩ := bind_eq_ok.mp settled
  obtain ⟨_, _, settled⟩ := bind_eq_ok.mp settled
  obtain ⟨lowered, _, settled⟩ := bind_eq_ok.mp settled
  split at settled
  · cases settled
    exact ⟨[], lowered.reqContext, (List.append_nil _).symm, by simp⟩
  · cases settled
    obtain ⟨calls, appended, forwarded⟩ := forward_finished_calls
      (manager.setRequest reqId { state with
        pendingPrimaryStores := state.pendingPrimaryStores - 1 }) lowered.reqContext none
    exact ⟨calls, lowered.reqContext, appended, forwarded⟩

/-- A successful report returns, hands only ready keys to the tiers and settles
one pending store of the request. -/
def CompletesCleanly (run : TieringRun P) (job : StoreJob) : Prop :=
  ∃ after calls, run.completeJob job true = .ok after ∧
    after.tierCalls = run.manager.tierCalls ++ calls ∧
    (∀ tierIdx submitted, (tierIdx, TierCall.submitStore submitted) ∈ calls →
      ∀ key ∈ submitted.keys, after.primaryTier.lookupResult key = .hit) ∧
    ∃ state, run.manager.reqState.get? job.reqContext.reqId = some state ∧
      0 < state.pendingPrimaryStores ∧
      after.reqState = settledRequests run.manager.reqState job.reqContext.reqId state

/-- The manager between the two halves of a successful report: the keys are
published and their deadlines are gone. -/
theorem report_written {run : TieringRun P} (pool : PoolInv run.manager.primaryTier)
    (job : StoreJob) : ∃ written : TieringOffloadingManager P,
      PoolInv written.primaryTier ∧
      written.primaryTier.get = published run.manager.primaryTier.get job.keys ∧
      written.secondaryTiers = run.manager.secondaryTiers ∧
      written.tierCalls = run.manager.tierCalls ∧ written.reqState = run.manager.reqState ∧
      run.completeJob job true =
        (written.cascade job.keys job.reqContext
            (List.range run.manager.secondaryTiers.length) >>=
          fun cascaded => cascaded.settleRequest job.reqContext.reqId) := by
  obtain ⟨primary, stored, afterPool, get⟩ := complete_store_ok pool job.keys true
  refine ⟨((run.reported job true).withPrimary primary).disarmStorePends job.keys, afterPool,
    get, rfl, rfl, rfl, ?_⟩
  have write : (run.reported job true).completeWrite job.keys true =
      .ok ((run.reported job true).withPrimary primary) := by
    unfold TieringOffloadingManager.completeWrite
    rw [show (run.reported job true).primaryTier.completeStore job.keys true = .ok primary from
      stored, ok_bind]
  unfold TieringRun.completeJob TieringOffloadingManager.completeStore
  rw [write, ok_bind]
  rfl

theorem completes_cleanly_iff {foreign : ReqId → Bool} {tiers : List TierInfo}
    {run : TieringRun P} (inv : AccountInv foreign tiers run) {job : StoreJob}
    (member : job ∈ run.stores) :
    CompletesCleanly run job ↔ tiers = [] ∨
      ∀ key ∈ job.keys, (run.manager.primaryTier.get key).isSome = true := by
  obtain ⟨written, pool, get, secondaryTiers, tierCalls, reqState, completes⟩ :=
    report_written inv.pool job
  rw [inv.tiers] at completes
  constructor
  · rintro ⟨after, calls, completed, _⟩
    rw [completes] at completed
    obtain ⟨cascaded, cascadeOk, _⟩ := bind_eq_ok.mp completed
    cases tiers with
    | nil => exact .inl rfl
    | cons tier rest =>
        rw [List.length_cons, List.range_succ_eq_map] at cascadeOk
        refine .inr fun key keyMember => (published_hit keyMember).mp ?_
        rw [← get]
        exact cascade_ready pool cascadeOk key keyMember
  · intro able
    have stillOpen : 0 < openStores run.stores job.reqContext.reqId :=
      List.countP_pos_iff.mpr ⟨job, member, by simp⟩
    rw [← inv.counted _ (inv.own job member)] at stillOpen
    obtain ⟨state, known⟩ : ∃ state,
        run.manager.reqState.get? job.reqContext.reqId = some state := by
      cases found : run.manager.reqState.get? job.reqContext.reqId with
      | none => simp [pendingStores, found] at stillOpen
      | some state => exact ⟨state, rfl⟩
    have positive : 0 < state.pendingPrimaryStores := by
      simpa [pendingStores, known] using stillOpen
    have cascades : ∃ cascaded calls,
        written.cascade job.keys job.reqContext (List.range tiers.length) = .ok cascaded ∧
        cascaded.tierCalls = written.tierCalls ++ calls ∧
        ∀ tierIdx submitted, (tierIdx, TierCall.submitStore submitted) ∈ calls →
          ∀ key ∈ submitted.keys, cascaded.primaryTier.lookupResult key = .hit := by
      rcases able with rfl | resident
      · exact ⟨written, [], rfl, by simp, by simp⟩
      · have ready : ∀ key ∈ job.keys, written.primaryTier.lookupResult key = .hit := by
          intro key keyMember
          rw [lookup_result_hit_iff, get]
          exact (published_hit keyMember).mpr (resident key keyMember)
        obtain ⟨cascaded, calls, ok, appended, submits, hits⟩ :=
          cascade_ok (List.range tiers.length) job.reqContext pool ready
        refine ⟨cascaded, calls, ok, appended, ?_⟩
        intro tierIdx submitted callMember key keyMember
        obtain ⟨sent, isSubmit, keys⟩ := submits _ callMember
        cases isSubmit
        exact hits key (keys ▸ keyMember)
    obtain ⟨cascaded, calls, ok, appended, hits⟩ := cascades
    have sameRequests : cascaded.reqState = run.manager.reqState :=
      (cascade_kept _ ok).reqState.trans reqState
    obtain ⟨after, settled⟩ := settle_request_ok (sameRequests ▸ known) positive
    obtain ⟨same, found, foundState, _, settledState⟩ := settle_request_spec settled
    obtain ⟨finishCalls, finished, forwarded, finishes⟩ := settle_calls settled
    rw [sameRequests] at foundState settledState
    rw [known] at foundState
    cases foundState
    refine ⟨after, calls ++ finishCalls, ?_, ?_, ?_, state, known, positive, settledState⟩
    · rw [completes, ok, ok_bind]
      exact settled
    · rw [forwarded, appended, tierCalls, List.append_assoc]
    · intro tierIdx submitted callMember key keyMember
      rcases List.mem_append.mp callMember with early | late
      · rw [same.primary]
        exact hits tierIdx submitted early key keyMember
      · cases finishes _ late

end Reports

/-- In every run a successful report completes cleanly exactly when there is no
tier or every key of the job is still resident. -/
def ReportsExact (policy : P) : Prop :=
  ∀ foreign primaryParams params tiers answers run,
    AnswersOpen (fun reqId => foreign reqId = true) answers →
    Reaches policy foreign (fun _ _ => True) primaryParams params tiers answers run →
    ∀ job ∈ run.stores, CompletesCleanly run job ↔ tiers = [] ∨
      ∀ key ∈ job.keys, (run.manager.primaryTier.get key).isSome = true

theorem reports_exact_of_lawful [LawfulCachePolicy P] {policy : P}
    (policyInv : LawfulCachePolicy.Inv policy)
    (empty : ∀ key, CachePolicy.get policy key = none) : ReportsExact policy := by
  intro foreign primaryParams params tiers answers run opens reaches job member
  exact completes_cleanly_iff (reaches_account policyInv empty opens reaches) member

theorem lru_and_arc_reports_exact (cacheCapacity : Nat)
    (rounding : FloatRounding.Rounding) :
    ReportsExact (LruPolicy.LRUCachePolicy.new cacheCapacity) ∧
      ReportsExact (ArcPolicy.ARCCachePolicy.new cacheCapacity rounding) := by
  constructor
  · apply reports_exact_of_lawful
    · intro key
      simp [LruPolicy.LRUCachePolicy.new]
    · exact fun _ => rfl
  · apply reports_exact_of_lawful
    · exact fun _ => Or.inl rfl
    · exact fun _ => rfl

theorem late_clock_opens (foreign : ReqId → Prop) (early : Nat) :
    AnswersOpen foreign (lateClock early) := by
  intro index parentCall member
  simp [lateClock] at member

/-- The job of request 0 is retracted and its key is reserved again for request 1; the late
report of the first job finds the key resident. -/
theorem resident_report_completes :
    ∃ run : TieringRun LruPolicy.LRUCachePolicy, ∃ job ∈ run.stores,
      job.reqContext.reqId = 0 ∧ job.keys = [⟨[7], 0⟩] ∧
      run.manager.ledger.current.get? ⟨[7], 0⟩ = some 1 ∧ CompletesCleanly run job := by
  have replayed : (EventRuns.replay TieringRun.apply
      (TieringRun.Permitted (fun _ => false) fun _ _ => True)
      (TieringRun.start (LruPolicy.LRUCachePolicy.new 2) { numBlocks := 2 }
        { storePendingTtlSecs := 30 } [{}] (lateClock 6))
      [.newRequest { reqId := 0 }, .newRequest { reqId := 1 },
        .prepareStore [⟨[7], 0⟩] { reqId := 0 }, .scheduleEnd ⟨[], []⟩,
        .prepareStore [⟨[7], 0⟩] { reqId := 1 }]).map
      (fun run => (run.stores.map fun job => (job.reqContext.reqId, job.keys),
        (run.manager.primaryTier.get ⟨[7], 0⟩).isSome,
        run.manager.ledger.current.get? ⟨[7], 0⟩)) =
      some ([(1, [⟨[7], 0⟩]), (0, [⟨[7], 0⟩])], true, some 1) := by
    decide +kernel
  obtain ⟨run, reaches, seen⟩ := EventRuns.exists_of_replay replayed
  obtain ⟨stores, rest⟩ := Prod.mk.inj seen
  obtain ⟨resident, current⟩ := Prod.mk.inj rest
  obtain ⟨job, member, first⟩ : ∃ job ∈ run.stores,
      (job.reqContext.reqId, job.keys) = (0, [⟨[7], 0⟩]) :=
    List.mem_map.mp (stores ▸ List.mem_cons_of_mem _ (List.mem_singleton_self _))
  obtain ⟨reqId, keys⟩ := Prod.mk.inj first
  refine ⟨run, job, member, reqId, keys, current, ((lru_and_arc_reports_exact 2 .exact).1 _ _ _ _ _
    run (late_clock_opens _ 6) reaches job member).mpr (.inr ?_)⟩
  simpa [keys] using resident

/-- With one tier, the report of a job whose key was retracted raises. -/
theorem retracted_report_raises : ∃ run : TieringRun LruPolicy.LRUCachePolicy,
    Reaches (LruPolicy.LRUCachePolicy.new 2) (fun _ => false) (fun _ _ => True)
      { numBlocks := 2 } { storePendingTtlSecs := 30 } [{}] (lateClock 5) run ∧
      ∃ job ∈ run.stores, run.completeJob job true = .error .assertionError ∧
        ¬CompletesCleanly run job := by
  have replayed : (EventRuns.replay TieringRun.apply
      (TieringRun.Permitted (fun _ => false) fun _ _ => True)
      (TieringRun.start (LruPolicy.LRUCachePolicy.new 2) { numBlocks := 2 }
        { storePendingTtlSecs := 30 } [{}] (lateClock 5))
      [.newRequest { reqId := 0 }, .prepareStore [⟨[7], 0⟩] { reqId := 0 },
        .scheduleEnd ⟨[], []⟩, .scheduleEnd ⟨[], []⟩]).map
      (fun run => run.stores.map fun job =>
        match run.completeJob job true with
        | .ok _ => none
        | .error problem => some problem) = some [some .assertionError] := by
    decide +kernel
  obtain ⟨run, reaches, seen⟩ := EventRuns.exists_of_replay replayed
  obtain ⟨job, member, outcome⟩ := List.mem_map.mp (seen ▸ List.mem_singleton_self _)
  have raised : run.completeJob job true = .error .assertionError := by
    cases completed : run.completeJob job true with
    | ok after => simp [completed] at outcome
    | error problem =>
        rw [completed] at outcome
        cases outcome
        rfl
  refine ⟨run, reaches, job, member, raised, ?_⟩
  rintro ⟨after, calls, completed, _⟩
  rw [raised] at completed
  cases completed

end KvOffload.StoreReports
