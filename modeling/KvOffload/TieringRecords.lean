import KvOffload.DutifulManagers
import KvOffload.MeteredResets

/-!
# The tiering manager with its trail

The trail of the jobs beside a tiering manager that the connector calls. While every poll
has been honest, the trail accounts for the jobs and the loads of the connector.
-/

namespace KvOffload.TieringRecords

open KvOffload KvOffload.Base KvOffload.PolicyInterface KvOffload.CpuManager KvOffload.Tiering
open KvOffload.TieringOperations KvOffload.TieringRuns KvOffload.ManagerInterface
open KvOffload.ManagerRecords KvOffload.ManagerDuties KvOffload.DutifulManagers
open KvOffload.PolicyMoves KvOffload.PinnedBlocks KvOffload.TransferBooks KvOffload.ReportTrail
open KvOffload.ReportRuns KvOffload.MeteredResets

set_option autoImplicit false

/-- The trail, and whether every poll so far was honest. -/
structure TierRecord where
  trail : Trail := {}
  honest : Bool := true

/-- What the call is to the manager's polls. -/
def eventOf : ManagerCall → TieringEvent
  | .lookup key reqContext _ => .lookup key reqContext
  | .touch keys => .touch keys
  | .prepareStore keys reqContext _ => .prepareStore keys reqContext
  | .completeStore _ _ => .completeStore 0 true
  | .prepareLoad keys _ => .prepareLoad keys
  | .completeLoad keys => .completeLoad keys
  | .onNewRequest reqContext => .newRequest reqContext
  | .onRequestFinished reqContext => .requestFinished reqContext
  | .onScheduleEnd context => .scheduleEnd context
  | .drainFlushJobIds => .drainFlushJobIds
  | .resetCache => .resetCache

variable {P : Type} [CachePolicy P]

instance : Recorder TierRecord (TieringOffloadingManager P) where
  note record call before after :=
    { trail := ReportRun.trailAfter ⟨⟨before, []⟩, [], record.trail⟩ (eventOf call) after
      honest := record.honest && decide (∀ polling ∈ pollOf before (eventOf call),
        record.trail.Honest (reportsOf polling)) }

abbrev Trailed (P : Type) := Recording TierRecord (TieringOffloadingManager P)

/-- The manager as its own runs see it. -/
def asRun (manager : Trailed P) : ReportRun P := ⟨⟨manager.inner, []⟩, [], manager.record.trail⟩

variable [LawfulCachePolicy P] [TrackedPolicy P]

/-- While the polls are honest, the trail accounts for the jobs. -/
structure TrailKeeps (foreign : ReqId → Prop) (answers : Nat → TierAnswer) (manager : Trailed P)
    (loads : OffloadKey → Nat) (stores : ReqId → Nat) (active : ReqId → Prop) : Prop where
  keeps : TierKeeps foreign answers manager.inner loads stores active
  trail : manager.record.honest = true → TrailInv manager.record.trail loads manager.inner

variable {foreign : ReqId → Prop} {answers : Nat → TierAnswer} {manager : Trailed P}
  {after : TieringOffloadingManager P}
  {loads loadsAfter : OffloadKey → Nat} {stores storesAfter : ReqId → Nat}
  {active activeAfter : ReqId → Prop}

/-- The trail after a call, given what the call does to an honest trail. -/
theorem told_keeps (call : ManagerCall) (keeps : TrailKeeps foreign answers manager loads stores active)
    (kept : TierKeeps foreign answers after loadsAfter storesAfter activeAfter)
    (noted : (∀ polling ∈ pollOf manager.inner (eventOf call),
        manager.record.trail.Honest (reportsOf polling)) →
      TrailInv manager.record.trail loads manager.inner →
        TrailInv ((asRun manager).trailAfter (eventOf call) after) loadsAfter after) :
    TrailKeeps foreign answers (manager.told call after) loadsAfter storesAfter activeAfter := by
  refine ⟨kept, fun honest => ?_⟩
  obtain ⟨before, now⟩ := Bool.and_eq_true_iff.mp honest
  exact noted (of_decide_eq_true now) (keeps.trail before)

theorem trailed_dutiful (foreign : ReqId → Prop) (answers : Nat → TierAnswer) :
    Dutiful (TrailKeeps (P := P) foreign answers) where
  fewer keeps fewerLoads fewerActive :=
    ⟨(tiering_dutiful foreign answers).fewer keeps.keeps fewerLoads fewerActive, fun honest =>
      fewer_trail (keeps.trail honest) fewerLoads⟩
  looked {manager after loads stores active key reqContext result} keeps call := by
    obtain ⟨inner, innerCall, rfl⟩ := lookup_told.mp call
    apply told_keeps (.lookup key reqContext result) keeps
      ((tiering_dutiful foreign answers).looked keeps.keeps innerCall)
    intro honest inv
    obtain ⟨polled, pollOk, quiet⟩ := lookup_quiet innerCall
    exact quiet_trail (maybe_process_trail inv honest pollOk).2 quiet.books
  touched {manager loads stores active} keys keeps := by
    apply told_keeps (.touch keys) keeps ((tiering_dutiful foreign answers).touched keys keeps.keeps)
    exact fun _ inv => quiet_trail inv (touch_quiet manager.inner keys).books
  loaded {manager after loads stores active keys blockIds} keeps call := by
    obtain ⟨inner, innerCall, rfl⟩ := prepare_load_told.mp call
    apply told_keeps (.prepareLoad keys blockIds) keeps
      ((tiering_dutiful foreign answers).loaded keeps.keeps innerCall)
    exact fun _ inv => prepare_load_trail inv innerCall
  declined {manager after loads stores active keys reqContext bypassThreshold output} keeps call
      nothing := by
    obtain ⟨inner, innerCall, rfl⟩ := prepare_store_told.mp call
    apply told_keeps (.prepareStore keys reqContext output) keeps
      ((tiering_dutiful foreign answers).declined keeps.keeps innerCall nothing)
    intro honest inv
    obtain ⟨polled, pollOk, quiet⟩ := prepare_store_quiet innerCall
    exact quiet_trail (maybe_process_trail inv honest pollOk).2 quiet.books
  stored {manager after loads stores active keys reqContext bypassThreshold output} keeps call
      something := by
    obtain ⟨inner, innerCall, rfl⟩ := prepare_store_told.mp call
    apply told_keeps (.prepareStore keys reqContext (some output)) keeps
      ((tiering_dutiful foreign answers).stored keeps.keeps innerCall something)
    intro honest inv
    obtain ⟨polled, pollOk, quiet⟩ := prepare_store_quiet innerCall
    exact quiet_trail (maybe_process_trail inv honest pollOk).2 quiet.books
  storeCompleted {manager after loads stores left active keys reqContext} keeps lowered call := by
    obtain ⟨inner, innerCall, rfl⟩ := map_eq_ok.mp call
    apply told_keeps (.completeStore keys reqContext) keeps
      ((tiering_dutiful foreign answers).storeCompleted keeps.keeps lowered innerCall)
    exact fun _ inv => quiet_trail inv (complete_store_quiet innerCall).books
  loadCompleted {manager after loads left stores active keys} keeps lowered call := by
    obtain ⟨inner, innerCall, rfl⟩ := map_eq_ok.mp call
    apply told_keeps (.completeLoad keys) keeps
      ((tiering_dutiful foreign answers).loadCompleted keeps.keeps lowered innerCall)
    exact fun _ inv => complete_load_trail inv lowered innerCall
  opened {manager loads stores active} reqContext keeps idle := by
    apply told_keeps (.onNewRequest reqContext) keeps
      ((tiering_dutiful foreign answers).opened reqContext keeps.keeps idle)
    exact fun _ inv => quiet_trail inv (new_request_quiet _ reqContext none).books
  ended {manager after loads stores active reqContext} keeps call := by
    obtain ⟨inner, innerCall, rfl⟩ := map_eq_ok.mp call
    apply told_keeps (.onRequestFinished reqContext) keeps
      ((tiering_dutiful foreign answers).ended keeps.keeps innerCall)
    exact fun _ inv => quiet_trail inv (request_finished_quiet innerCall).books
  scheduled {manager after loads stores active context} keeps call := by
    obtain ⟨inner, innerCall, rfl⟩ := map_eq_ok.mp call
    apply told_keeps (.onScheduleEnd context) keeps
      ((tiering_dutiful foreign answers).scheduled keeps.keeps innerCall)
    intro honest inv
    obtain ⟨polled, pollOk, quiet⟩ := schedule_end_quiet innerCall
    obtain ⟨closed, polledInv⟩ := maybe_process_trail inv honest pollOk
    exact quiet_trail polledInv (quiet closed)
  drained {manager loads stores active} keeps := by
    apply told_keeps .drainFlushJobIds keeps ((tiering_dutiful foreign answers).drained keeps.keeps)
    exact fun _ inv => quiet_trail (drain_trail inv) (quiet_refl _).books
  reset {manager after loads stores active} keeps call := by
    obtain ⟨inner, innerCall, rfl⟩ := map_eq_ok.mp call
    apply told_keeps .resetCache keeps ((tiering_dutiful foreign answers).reset keeps.keeps innerCall)
    exact fun honest inv => reset_cache_trail inv (honest _ rfl) innerCall

section Finishing

variable {finished : Trailed P}

/-- Ending requests adds nothing to the trail. -/
theorem finish_all_run (contexts : List ReqContext) {manager : Trailed P} {active : ReqId → Prop}
    (keeps : TrailKeeps foreign answers manager loads stores active)
    (honest : manager.record.honest = true)
    (calls : JobBooks.finishAll manager contexts = .ok finished) :
    finished.record.honest = true ∧
      (∀ jobId, finished.record.trail.given.get? jobId = manager.record.trail.given.get? jobId) ∧
      ∀ jobId, (asRun finished).Retracted jobId ↔ (asRun manager).Retracted jobId := by
  induction contexts generalizing manager active with
  | nil =>
      cases calls
      exact ⟨honest, fun _ => rfl, fun _ => Iff.rfl⟩
  | cons reqContext rest ih =>
      obtain ⟨middle, call, calls⟩ := bind_eq_ok.mp calls
      have ended := (trailed_dutiful foreign answers).ended keeps call
      obtain ⟨inner, innerCall, rfl⟩ := map_eq_ok.mp call
      have stillHonest : (manager.told (.onRequestFinished reqContext) inner).record.honest =
          true := by
        refine Bool.and_eq_true_iff.mpr ⟨honest, decide_eq_true ?_⟩
        exact fun polling member => by cases member
      obtain ⟨lastHonest, given, retracted⟩ := ih ended stillHonest calls
      obtain ⟨same, _⟩ := request_finished_spec innerCall
      obtain ⟨_, advanced⟩ := (request_finished_quiet innerCall).books keeps.keeps.backed.booked
      refine ⟨lastHonest, fun jobId => (given jobId).trans ?_, fun jobId =>
        (retracted jobId).trans ?_⟩
      · refine (give_get manager.record.trail inner.jobs jobId).trans ?_
        rw [same.jobs]
        cases running : manager.inner.jobs.get? jobId with
        | none => rfl
        | some job => exact ((keeps.trail honest).jobs jobId job running).symm
      · have late : tolerates inner jobId = tolerates manager.inner jobId := by
          rw [tolerates, tolerates, advanced.retracted, advanced.drained]
        show tolerates inner jobId = true ∨ _ ↔ _
        rw [late]
        exact Iff.rfl

omit [CachePolicy P] [LawfulCachePolicy P] [TrackedPolicy P] in
theorem request_finished_ok {manager : TieringOffloadingManager P} {reqContext : ReqContext}
    {state : RequestState} (found : manager.reqState.get? reqContext.reqId = some state) :
    ∃ after, manager.onRequestFinished reqContext none = .ok after := by
  simp only [TieringOffloadingManager.onRequestFinished, found, py_item_some, ok_bind,
    TieringOffloadingManager.maybeFinalizeRequest, TieringOffloadingManager.setRequest,
    OrderedMap.get_set_self]
  split
  · exact ⟨_, rfl⟩
  · exact ⟨_, rfl⟩

/-- The ends of active requests of its own are taken by the manager. -/
theorem finish_all_returns (contexts : List ReqContext) {manager : Trailed P}
    {active : ReqId → Prop} (keeps : TrailKeeps foreign answers manager loads stores active)
    (closes : AnswersClose foreign answers)
    (own : ∀ reqContext ∈ contexts, ¬foreign reqContext.reqId ∧ active reqContext.reqId)
    (distinct : (contexts.map ReqContext.reqId).Nodup) :
    ∃ finished, JobBooks.finishAll manager contexts = .ok finished := by
  induction contexts generalizing manager active with
  | nil => exact ⟨manager, rfl⟩
  | cons reqContext rest ih =>
      obtain ⟨unlisted, distinct⟩ := List.nodup_cons.mp distinct
      obtain ⟨isOwn, isActive⟩ := own reqContext List.mem_cons_self
      obtain ⟨state, found, _⟩ := keeps.keeps.tracks.known closes _ isOwn isActive
      obtain ⟨inner, innerCall⟩ := request_finished_ok found
      have call : OffloadingManager.onRequestFinished manager reqContext =
          .ok (manager.told (.onRequestFinished reqContext) inner) :=
        map_eq_ok.mpr ⟨inner, innerCall, rfl⟩
      obtain ⟨finished, calls⟩ := ih ((trailed_dutiful foreign answers).ended keeps call)
        (fun other member => by
          obtain ⟨otherOwn, otherActive⟩ := own other (List.mem_cons_of_mem _ member)
          exact ⟨otherOwn, otherActive, fun same =>
            unlisted (same ▸ List.mem_map_of_mem member)⟩) distinct
      exact ⟨finished, by rw [JobBooks.finishAll, call, ok_bind, calls]⟩

end Finishing

end KvOffload.TieringRecords
