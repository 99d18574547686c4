import KvOffload.ArcPolicy
import KvOffload.EventRuns
import KvOffload.LruPolicy
import KvOffload.TieringOperations

/-!
# Runs of the tiering manager

The events are the calls the connector makes, in any order and with any answers
of the clock and the tiers in between. A run also carries the GPU store jobs
that were accepted and not yet reported, each with the numbers of its
reservations; when a job is reported as successful its reservations are filled.
-/

namespace KvOffload.TieringRuns

open KvOffload KvOffload.Base KvOffload.PolicyInterface KvOffload.CpuManager
open KvOffload.CpuPool KvOffload.CpuManagerSpec KvOffload.Reservations
open KvOffload.Tiering KvOffload.TieringSlots KvOffload.TieringPolling
open KvOffload.TieringOperations

set_option autoImplicit false

structure StoreJob where
  keys : List OffloadKey
  reqContext : ReqContext
  numbers : List Nat

inductive TieringEvent where
  | newRequest (reqContext : ReqContext)
  | lookup (key : OffloadKey) (reqContext : ReqContext)
  | prepareStore (keys : List OffloadKey) (reqContext : ReqContext)
  | completeStore (index : Nat) (success : Bool)
  | prepareLoad (keys : List OffloadKey)
  | completeLoad (keys : List OffloadKey)
  | touch (keys : List OffloadKey)
  | requestFinished (reqContext : ReqContext)
  | scheduleEnd (context : ScheduleEndContext)
  | drainFlushJobIds
  | resetCache

structure TieringRun (P : Type) where
  manager : TieringOffloadingManager P
  stores : List StoreJob

variable {P : Type}

namespace TieringRun

def withManager (run : TieringRun P) (manager : TieringOffloadingManager P) : TieringRun P :=
  { run with manager := manager }

/-- A job for the keys a store accepted; nothing is transferred for none. -/
def accept (run : TieringRun P) (output : PrepareStoreOutput) (reqContext : ReqContext)
    (manager : TieringOffloadingManager P) : TieringRun P :=
  if output.keysToStore = [] then run.withManager manager
  else
    ⟨manager, ⟨output.keysToStore, reqContext, output.keysToStore.map fun key =>
      (manager.ledger.current.get? key).getD 0⟩ :: run.stores⟩

/-- The ledger learns of a successful transfer when it is reported. -/
def reported (run : TieringRun P) (job : StoreJob) (success : Bool) :
    TieringOffloadingManager P :=
  if success then run.manager.fillLedger job.numbers else run.manager

variable [CachePolicy P]

def completeJob (run : TieringRun P) (job : StoreJob) (success : Bool) :
    Except PyError (TieringOffloadingManager P) :=
  (run.reported job success).completeStore job.keys job.reqContext success

def apply (run : TieringRun P) : TieringEvent → Except PyError (TieringRun P)
  | .newRequest reqContext => .ok (run.withManager (run.manager.onNewRequest reqContext).2)
  | .lookup key reqContext => do
      let (_, manager) ← run.manager.lookup key reqContext
      .ok (run.withManager manager)
  | .prepareStore keys reqContext => do
      match ← run.manager.prepareStore keys reqContext with
      | (none, manager) => .ok (run.withManager manager)
      | (some output, manager) => .ok (run.accept output reqContext manager)
  | .completeStore index success =>
      match run.stores[index]? with
      | none => .ok run
      | some job => do
          let manager ← run.completeJob job success
          .ok ⟨manager, run.stores.eraseIdx index⟩
  | .prepareLoad keys => do
      let (_, manager) ← run.manager.prepareLoad keys
      .ok (run.withManager manager)
  | .completeLoad keys => do
      let manager ← run.manager.completeLoad keys
      .ok (run.withManager manager)
  | .touch keys => .ok (run.withManager (run.manager.touch keys))
  | .requestFinished reqContext => do
      let manager ← run.manager.onRequestFinished reqContext
      .ok (run.withManager manager)
  | .scheduleEnd context => do
      let manager ← run.manager.onScheduleEnd context
      .ok (run.withManager manager)
  | .drainFlushJobIds => .ok (run.withManager run.manager.drainFlushJobIds.2)
  | .resetCache => do
      let manager ← run.manager.resetCache
      .ok ⟨manager, []⟩

/-- Request ids are unique and not those of the tiers' own requests, the keys of
one store are distinct, and a job is reported only if `allowed`. -/
def Permitted (foreign : ReqId → Bool) (allowed : TieringRun P → StoreJob → Prop)
    (run : TieringRun P) : TieringEvent → Prop
  | .newRequest reqContext => foreign reqContext.reqId = false ∧
      (run.manager.reqState.get? reqContext.reqId).isNone = true
  | .prepareStore keys reqContext => foreign reqContext.reqId = false ∧ keys.Nodup
  | .completeStore index _ => ∀ job ∈ run.stores[index]?, allowed run job
  | _ => True

instance (foreign : ReqId → Bool) (allowed : TieringRun P → StoreJob → Prop)
    [∀ run job, Decidable (allowed run job)] (run : TieringRun P) (event : TieringEvent) :
    Decidable (Permitted foreign allowed run event) :=
  match event with
  | .newRequest _ => inferInstanceAs (Decidable (_ ∧ _))
  | .prepareStore _ _ => inferInstanceAs (Decidable (_ ∧ _))
  | .completeStore index _ => inferInstanceAs (Decidable (∀ job ∈ run.stores[index]?, _))
  | .lookup _ _ | .prepareLoad _ | .completeLoad _ | .touch _ | .requestFinished _
  | .scheduleEnd _ | .drainFlushJobIds | .resetCache => .isTrue trivial

def start (policy : P) (primaryParams : CpuManagerParams) (params : TieringParams)
    (tiers : List TierInfo) (answers : Nat → TierAnswer) : TieringRun P :=
  ⟨TieringOffloadingManager.new params (CPUOffloadingManager.new primaryParams policy) tiers
    answers, []⟩

end TieringRun

open TieringRun

/-- Runs of a new manager in front of any tiers and any clock. -/
def Reaches [CachePolicy P] (policy : P) (foreign : ReqId → Bool)
    (allowed : TieringRun P → StoreJob → Prop) (primaryParams : CpuManagerParams)
    (params : TieringParams) (tiers : List TierInfo) (answers : Nat → TierAnswer)
    (run : TieringRun P) : Prop :=
  EventRuns.Reaches TieringRun.apply (TieringRun.Permitted foreign allowed)
    (TieringRun.start policy primaryParams params tiers answers) run

/-- Every pending key of the job is under the reservation made for that job. -/
def StillReserved [CachePolicy P] (run : TieringRun P) (job : StoreJob) : Prop :=
  ∀ entry ∈ job.keys.zip job.numbers,
    run.manager.primaryTier.lookupResult entry.1 = .hitPending →
      run.manager.ledger.current.get? entry.1 = some entry.2

instance [CachePolicy P] (run : TieringRun P) (job : StoreJob) :
    Decidable (StillReserved run job) :=
  inferInstanceAs (Decidable (∀ entry ∈ job.keys.zip job.numbers, _ → _))

/-- A hit is on a block that was filled by the transfer it is reserved for. -/
def HitsFilled [CachePolicy P] (run : TieringRun P) : Prop :=
  ∀ key, run.manager.primaryTier.lookupResult key = .hit → ∃ number,
    run.manager.ledger.current.get? key = some number ∧ number ∈ run.manager.ledger.filled

section Ownership

variable [CachePolicy P] [LawfulCachePolicy P]

structure OwnershipInv (run : TieringRun P) : Prop where
  inv : TieringInv run.manager
  lengths : ∀ job ∈ run.stores, job.numbers.length = job.keys.length
  unclaimed : ∀ job ∈ run.stores, ∀ entry ∈ job.keys.zip job.numbers,
    entry.2 < (slotsOf run.manager).next ∧ entry ∉ (slotsOf run.manager).claims

theorem ownership_of_grows {run : TieringRun P} {manager : TieringOffloadingManager P}
    {stores : List StoreJob} (inv : OwnershipInv run)
    (subset : ∀ job ∈ stores, job ∈ run.stores)
    (after : TieringInv manager ∧ (slotsOf run.manager).Grows (slotsOf manager)) :
    OwnershipInv ⟨manager, stores⟩ := by
  refine ⟨after.1, fun job member => inv.lengths job (subset job member), ?_⟩
  intro job member entry entryMember
  obtain ⟨bound, unclaimed⟩ := inv.unclaimed job (subset job member) entry entryMember
  exact ⟨bound.trans_le after.2.next_le, unclaimed_grows after.2 bound unclaimed⟩

omit [LawfulCachePolicy P] in
theorem phase_reserved_iff (primary : CPUOffloadingManager P) (key : OffloadKey) :
    phaseOf (primary.get key) = .reserved ↔ primary.lookupResult key = .hitPending := by
  unfold CPUOffloadingManager.lookupResult
  cases primary.get key with
  | none => simp [phaseOf]
  | some block =>
      by_cases pending : block.refCnt < 0 <;> simp [phaseOf, BlockStatus.isReady, pending]

theorem accept_keeps_ownership {run : TieringRun P} (inv : OwnershipInv run)
    {manager : TieringOffloadingManager P} {output : PrepareStoreOutput}
    {reqContext : ReqContext} (prepared : StorePrepared run.manager reqContext.reqId
      (some output) manager) : OwnershipInv (run.accept output reqContext manager) := by
  obtain ⟨afterInv, grows, numbered⟩ := prepared.inv inv.inv
  have old : OwnershipInv ⟨manager, run.stores⟩ :=
    ownership_of_grows inv (fun _ member => member) ⟨afterInv, grows⟩
  unfold TieringRun.accept
  split
  · exact old
  · refine ⟨afterInv, ?_, ?_⟩
    · intro job member
      rcases List.mem_cons.mp member with rfl | before
      · simp
      · exact old.lengths job before
    · intro job member entry entryMember
      rcases List.mem_cons.mp member with rfl | before
      · rw [← List.map_prod_left_eq_zip, List.mem_map] at entryMember
        obtain ⟨key, keyMember, rfl⟩ := entryMember
        obtain ⟨number, holds, bound, unclaimed⟩ := numbered output rfl key keyMember
        have read : (manager.ledger.current.get? key).getD 0 = number := by
          rw [show manager.ledger.current.get? key = some number from holds]
          rfl
        rw [read]
        exact ⟨bound, unclaimed⟩
      · exact old.unclaimed job before entry entryMember

theorem complete_keeps_ownership {run : TieringRun P} (inv : OwnershipInv run) {index : Nat}
    {job : StoreJob} (found : run.stores[index]? = some job) (still : StillReserved run job)
    {success : Bool} {manager : TieringOffloadingManager P}
    (completed : run.completeJob job success = .ok manager) :
    OwnershipInv ⟨manager, run.stores.eraseIdx index⟩ := by
  have member : job ∈ run.stores := List.mem_of_getElem? found
  have reportedSpec : TieringInv (run.reported job success) ∧
      (slotsOf run.manager).Grows (slotsOf (run.reported job success)) := by
    unfold TieringRun.reported
    split
    · exact ⟨fill_ledger_inv inv.inv job.numbers, ⟨le_rfl, fun _ claim => .inl claim⟩⟩
    · exact ⟨inv.inv, grows_refl _⟩
  have samePhase : ∀ key, (slotsOf (run.reported job success)).phase key =
      phaseOf (run.manager.primaryTier.get key) := by
    intro key
    unfold TieringRun.reported
    split <;> rfl
  have sameHolder : (slotsOf (run.reported job success)).holder =
      run.manager.ledger.current.get? := by
    unfold TieringRun.reported
    split <;> rfl
  have sameClaims : (slotsOf (run.reported job success)).claims =
      (slotsOf run.manager).claims := by
    unfold TieringRun.reported
    split <;> rfl
  have own : OwnsPending (run.reported job success) job.keys success := by
    intro key keyMember reserved
    rw [samePhase, phase_reserved_iff] at reserved
    obtain ⟨number, entry⟩ := zip_key_claimed (inv.lengths job member) keyMember
    refine ⟨number, ?_, ?_, ?_⟩
    · rw [sameHolder]
      exact still _ entry reserved
    · rw [sameClaims]
      exact (inv.unclaimed job member _ entry).2
    · rintro rfl
      exact List.mem_append_left _ (List.of_mem_zip entry).2
  obtain ⟨afterInv, grows⟩ :=
    (complete_store_completed completed).inv reportedSpec.1 own
  exact ownership_of_grows inv (fun _ kept => List.mem_of_mem_eraseIdx kept)
    ⟨afterInv, grows_trans reportedSpec.2 grows⟩

theorem event_keeps_ownership {foreign : ReqId → Bool} {run next : TieringRun P}
    {event : TieringEvent} (inv : OwnershipInv run)
    (permitted : TieringRun.Permitted foreign StillReserved run event)
    (applied : run.apply event = .ok next) : OwnershipInv next := by
  have kept : ∀ manager, Kept run.manager manager → OwnershipInv (run.withManager manager) :=
    fun manager kept => ownership_of_grows inv (fun _ member => member) (kept.inv inv.inv)
  have core : ∀ manager, SameCore run.manager manager →
      OwnershipInv (run.withManager manager) := fun manager same =>
    ownership_of_grows inv (fun _ member => member)
      ⟨same_core_inv same inv.inv, same_core_slots same ▸ grows_refl _⟩
  cases event with
  | newRequest reqContext =>
      cases applied
      exact core _ (new_request_spec run.manager reqContext none).1
  | lookup key reqContext =>
      obtain ⟨⟨result, manager⟩, looked, done⟩ := bind_eq_ok.mp applied
      cases done
      exact kept manager (lookup_kept looked)
  | prepareStore keys reqContext =>
      obtain ⟨⟨output, manager⟩, prepared, done⟩ := bind_eq_ok.mp applied
      have spec := prepare_store_prepared permitted.2 prepared
      cases output with
      | none =>
          cases done
          obtain ⟨afterInv, grows, _⟩ := spec.inv inv.inv
          exact ownership_of_grows inv (fun _ member => member) ⟨afterInv, grows⟩
      | some output =>
          cases done
          exact accept_keeps_ownership inv spec
  | completeStore index success =>
      cases found : run.stores[index]? with
      | none =>
          simp only [TieringRun.apply, found] at applied
          cases applied
          exact inv
      | some job =>
          simp only [TieringRun.apply, found] at applied
          obtain ⟨manager, completed, done⟩ := bind_eq_ok.mp applied
          cases done
          exact complete_keeps_ownership inv found (permitted job found) completed
  | prepareLoad keys =>
      obtain ⟨⟨blockIds, manager⟩, prepared, done⟩ := bind_eq_ok.mp applied
      cases done
      obtain ⟨primary, loaded, finished⟩ := bind_eq_ok.mp prepared
      cases finished
      exact kept _ (pin_kept loaded)
  | completeLoad keys =>
      obtain ⟨manager, completed, done⟩ := bind_eq_ok.mp applied
      cases done
      obtain ⟨primary, unpinned, finished⟩ := bind_eq_ok.mp completed
      cases finished
      exact kept _ (unpin_kept unpinned)
  | touch keys =>
      cases applied
      exact kept _ (touch_kept run.manager keys)
  | requestFinished reqContext =>
      obtain ⟨manager, finished, done⟩ := bind_eq_ok.mp applied
      cases done
      exact core manager (request_finished_spec finished).1
  | scheduleEnd context =>
      obtain ⟨manager, ended, done⟩ := bind_eq_ok.mp applied
      cases done
      have anyTier : AnswersOpen (fun _ => True) run.manager.answers := by
        intro index parentCall _
        cases parentCall <;> trivial
      exact ownership_of_grows inv (fun _ member => member)
        ((schedule_end_by anyTier (answers_close_any _) ended).inv inv.inv)
  | drainFlushJobIds =>
      cases applied
      exact kept _ (drain_kept run.manager)
  | resetCache =>
      obtain ⟨manager, reset, done⟩ := bind_eq_ok.mp applied
      cases done
      exact ⟨(reset_cache_reset reset).1 inv.inv, by simp, by simp⟩

theorem hits_filled_of_inv {run : TieringRun P} (inv : OwnershipInv run) : HitsFilled run := by
  intro key hit
  obtain ⟨block, bound, ready⟩ := (lookup_result_hit_iff _ _).mp hit
  have filled : (slotsOf run.manager).phase key = .filled := by
    have notPending : ¬block.refCnt < 0 := not_lt.mpr ready
    simp [slotsOf, bound, phaseOf, notPending]
  exact inv.inv.slots.sound key filled

theorem reaches_ownership {policy : P} (policyInv : LawfulCachePolicy.Inv policy)
    (empty : ∀ key, CachePolicy.get policy key = none) {foreign : ReqId → Bool}
    {primaryParams : CpuManagerParams} {params : TieringParams} {tiers : List TierInfo}
    {answers : Nat → TierAnswer} {run : TieringRun P}
    (reaches : Reaches policy foreign StillReserved primaryParams params tiers answers run) :
    OwnershipInv run := by
  obtain ⟨pool, vacant⟩ := new_spec primaryParams policy policyInv empty
  have initial : OwnershipInv (TieringRun.start policy primaryParams params tiers answers) :=
    ⟨new_tiering_inv params pool vacant tiers answers, by simp [TieringRun.start],
      by simp [TieringRun.start]⟩
  exact EventRuns.reaches_invariant
    (fun _ _ _ inv permitted applied => event_keeps_ownership inv permitted applied)
    initial reaches

end Ownership

/-- In every run that only reports `allowed` jobs, hits are on filled blocks. -/
def HitsAlwaysFilled [CachePolicy P] (policy : P)
    (allowed : TieringRun P → StoreJob → Prop) : Prop :=
  ∀ foreign primaryParams params tiers answers run,
    Reaches policy foreign allowed primaryParams params tiers answers run → HitsFilled run

theorem still_reserved_runs_hit_filled (cacheCapacity : Nat)
    (rounding : FloatRounding.Rounding) :
    HitsAlwaysFilled (LruPolicy.LRUCachePolicy.new cacheCapacity) StillReserved ∧
      HitsAlwaysFilled (ArcPolicy.ARCCachePolicy.new cacheCapacity rounding) StillReserved := by
  constructor
  · intro foreign primaryParams params tiers answers run reaches
    have policyInv : LawfulCachePolicy.Inv (LruPolicy.LRUCachePolicy.new cacheCapacity) := by
      intro key
      simp [LruPolicy.LRUCachePolicy.new]
    exact hits_filled_of_inv (reaches_ownership policyInv (fun _ => rfl) reaches)
  · intro foreign primaryParams params tiers answers run reaches
    exact hits_filled_of_inv (reaches_ownership (fun _ => Or.inl rfl) (fun _ => rfl) reaches)

/-- The clock stands at 0 for the first answers and at 100 afterwards. -/
def lateClock (early : Nat) (index : Nat) : TierAnswer :=
  { now := if index < early then 0 else 100 }

/-- The job of request 0 is retracted, its key is reserved again for request 1, and the
report of the second job makes the key ready. -/
theorem still_reserved_run_hits_filled :
    ∃ run : TieringRun LruPolicy.LRUCachePolicy,
      run.manager.primaryTier.lookupResult ⟨[7], 0⟩ = .hit ∧
      run.manager.ledger.current.get? ⟨[7], 0⟩ = some 1 ∧ HitsFilled run := by
  have replayed : (EventRuns.replay TieringRun.apply
      (TieringRun.Permitted (fun _ => false) StillReserved)
      (TieringRun.start (LruPolicy.LRUCachePolicy.new 2) { numBlocks := 2 }
        { storePendingTtlSecs := 30 } [] (lateClock 3))
      [.newRequest { reqId := 0 }, .newRequest { reqId := 1 },
        .prepareStore [⟨[7], 0⟩] { reqId := 0 }, .scheduleEnd ⟨[], []⟩,
        .prepareStore [⟨[7], 0⟩] { reqId := 1 }, .completeStore 0 true]).map
      (fun run => (run.manager.primaryTier.lookupResult ⟨[7], 0⟩,
        run.manager.ledger.current.get? ⟨[7], 0⟩)) = some (.hit, some 1) := by
    decide +kernel
  obtain ⟨run, reaches, seen⟩ := EventRuns.exists_of_replay replayed
  obtain ⟨hit, current⟩ := Prod.mk.inj seen
  exact ⟨run, hit, current,
    (still_reserved_runs_hit_filled 2 .exact).1 _ _ _ _ _ run reaches⟩

/-- The job of request 0 is retracted, its key is reserved again for request 1,
and the late report of the first job makes the second reservation ready. -/
theorem late_report_hits_unfilled : ∃ run : TieringRun LruPolicy.LRUCachePolicy,
    Reaches (LruPolicy.LRUCachePolicy.new 2) (fun _ => false) (fun _ _ => True)
      { numBlocks := 2 } { storePendingTtlSecs := 30 } [] (lateClock 3) run ∧
      ¬HitsFilled run := by
  have replayed : (EventRuns.replay TieringRun.apply
      (TieringRun.Permitted (fun _ => false) fun _ _ => True)
      (TieringRun.start (LruPolicy.LRUCachePolicy.new 2) { numBlocks := 2 }
        { storePendingTtlSecs := 30 } [] (lateClock 3))
      [.newRequest { reqId := 0 }, .newRequest { reqId := 1 },
        .prepareStore [⟨[7], 0⟩] { reqId := 0 }, .scheduleEnd ⟨[], []⟩,
        .prepareStore [⟨[7], 0⟩] { reqId := 1 }, .completeStore 1 true]).map
      (fun run => (run.manager.primaryTier.lookupResult ⟨[7], 0⟩,
        run.manager.ledger.current.get? ⟨[7], 0⟩, run.manager.ledger.filled)) =
        some (.hit, some 1, [0]) := by
    decide +kernel
  obtain ⟨run, reaches, seen⟩ := EventRuns.exists_of_replay replayed
  obtain ⟨hit, rest⟩ := Prod.mk.inj seen
  obtain ⟨current, filled⟩ := Prod.mk.inj rest
  refine ⟨run, reaches, fun hitsFilled => ?_⟩
  obtain ⟨number, holds, isFilled⟩ := hitsFilled _ hit
  rw [current] at holds
  cases holds
  simp [filled] at isFilled

end KvOffload.TieringRuns
