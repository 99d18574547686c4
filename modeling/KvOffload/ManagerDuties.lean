import KvOffload.ConnectorRuns
import KvOffload.FiniteTotals
import KvOffload.ManagerRecords

/-!
# Duties of a manager towards the connector

The books of the connector say which keys the loads in flight hold, how many stores of each
request are in flight, and which requests were not signaled. A manager that accounts for
these over its own calls accounts for them in every run of the connector.
-/

namespace KvOffload.ManagerDuties

open KvOffload KvOffload.Base KvOffload.ConnectorConfig KvOffload.FiniteTotals
open KvOffload.CpuManager KvOffload.ManagerInterface KvOffload.ManagerRecords
open KvOffload.ConnectorScheduler KvOffload.JobBooks KvOffload.JobInvariants
open KvOffload.ConnectorMoves KvOffload.ConnectorRuns

set_option autoImplicit false

variable {M : Type}

/-- What a manager accounts for: how often loads in flight hold a key, the stores of a
request that are in flight, and the requests whose end it has not heard of. -/
abbrev Account (M : Type) := M → (OffloadKey → Nat) → (ReqId → Nat) → (ReqId → Prop) → Prop

/-- The account over the calls of a manager that return. -/
structure Dutiful [OffloadingManager M] (Keeps : Account M) : Prop where
  fewer {manager : M} {loads less : OffloadKey → Nat} {stores : ReqId → Nat}
    {active left : ReqId → Prop} (keeps : Keeps manager loads stores active)
    (fewerLoads : ∀ key, less key ≤ loads key) (fewerActive : ∀ reqId, left reqId → active reqId) :
    Keeps manager less stores left
  looked {manager after : M} {loads : OffloadKey → Nat} {stores : ReqId → Nat}
    {active : ReqId → Prop} {key : OffloadKey} {reqContext : ReqContext} {result : LookupResult}
    (keeps : Keeps manager loads stores active)
    (call : OffloadingLookup.lookup manager key reqContext = .ok (result, after)) :
    Keeps after loads stores active
  touched {manager : M} {loads : OffloadKey → Nat} {stores : ReqId → Nat} {active : ReqId → Prop}
    (keys : List OffloadKey) (keeps : Keeps manager loads stores active) :
    Keeps (OffloadingLookup.touch manager keys) loads stores active
  loaded {manager after : M} {loads : OffloadKey → Nat} {stores : ReqId → Nat}
    {active : ReqId → Prop} {keys : List OffloadKey} {blockIds : List Nat}
    (keeps : Keeps manager loads stores active)
    (call : OffloadingManager.prepareLoad manager keys = .ok (blockIds, after)) :
    Keeps after (fun key => loads key + keys.count key) stores active
  declined {manager after : M} {loads : OffloadKey → Nat} {stores : ReqId → Nat}
    {active : ReqId → Prop} {keys : List OffloadKey} {reqContext : ReqContext}
    {bypassThreshold : Bool} {output : Option PrepareStoreOutput}
    (keeps : Keeps manager loads stores active)
    (call : OffloadingManager.prepareStore manager keys reqContext bypassThreshold =
      .ok (output, after))
    (nothing : ∀ accepted ∈ output, accepted.keysToStore = []) : Keeps after loads stores active
  stored {manager after : M} {loads : OffloadKey → Nat} {stores : ReqId → Nat}
    {active : ReqId → Prop} {keys : List OffloadKey} {reqContext : ReqContext}
    {bypassThreshold : Bool} {output : PrepareStoreOutput}
    (keeps : Keeps manager loads stores active)
    (call : OffloadingManager.prepareStore manager keys reqContext bypassThreshold =
      .ok (some output, after))
    (something : output.keysToStore ≠ []) :
    Keeps after loads
      (fun reqId => stores reqId + if reqId = reqContext.reqId then 1 else 0) active
  storeCompleted {manager after : M} {loads : OffloadKey → Nat} {stores left : ReqId → Nat}
    {active : ReqId → Prop} {keys : List OffloadKey} {reqContext : ReqContext}
    (keeps : Keeps manager loads stores active)
    (lowered : ∀ reqId, left reqId + (if reqId = reqContext.reqId then 1 else 0) = stores reqId)
    (call : OffloadingManager.completeStore manager keys reqContext = .ok after) :
    Keeps after loads left active
  loadCompleted {manager after : M} {loads left : OffloadKey → Nat} {stores : ReqId → Nat}
    {active : ReqId → Prop} {keys : List OffloadKey} (keeps : Keeps manager loads stores active)
    (lowered : ∀ key, left key + keys.count key = loads key)
    (call : OffloadingManager.completeLoad manager keys = .ok after) :
    Keeps after left stores active
  opened {manager : M} {loads : OffloadKey → Nat} {stores : ReqId → Nat} {active : ReqId → Prop}
    (reqContext : ReqContext) (keeps : Keeps manager loads stores active)
    (none : stores reqContext.reqId = 0) :
    Keeps (OffloadingManager.onNewRequest manager reqContext).2 loads stores
      fun reqId => active reqId ∨ reqId = reqContext.reqId
  ended {manager after : M} {loads : OffloadKey → Nat} {stores : ReqId → Nat}
    {active : ReqId → Prop} {reqContext : ReqContext}
    (keeps : Keeps manager loads stores active)
    (call : OffloadingManager.onRequestFinished manager reqContext = .ok after) :
    Keeps after loads stores fun reqId => active reqId ∧ reqId ≠ reqContext.reqId
  scheduled {manager after : M} {loads : OffloadKey → Nat} {stores : ReqId → Nat}
    {active : ReqId → Prop} {context : ScheduleEndContext}
    (keeps : Keeps manager loads stores active)
    (call : OffloadingManager.onScheduleEnd manager context = .ok after) :
    Keeps after loads stores active
  drained {manager : M} {loads : OffloadKey → Nat} {stores : ReqId → Nat} {active : ReqId → Prop}
    (keeps : Keeps manager loads stores active) :
    Keeps (OffloadingManager.drainFlushJobIds manager).2 loads stores active
  reset {manager after : M} {loads : OffloadKey → Nat} {stores : ReqId → Nat}
    {active : ReqId → Prop} (keeps : Keeps manager loads stores active)
    (call : OffloadingManager.resetCache manager = .ok after) :
    Keeps after (fun _ => 0) (fun _ => 0) active

section Totals

variable {jobs : OrderedMap JobId TransferJobStatus} {jobId : JobId}
  {job old : TransferJobStatus} (weight : TransferJobStatus → Nat)

theorem total_entered (fresh : jobs.get? jobId = none) :
    mapTotal (jobs.set jobId job) weight = mapTotal jobs weight + weight job := by
  have total := map_total_set jobs jobId job weight
  rwa [fresh, Option.elim_none, add_zero] at total

theorem total_changed (found : jobs.get? jobId = some old) (same : weight job = weight old) :
    mapTotal (jobs.set jobId job) weight = mapTotal jobs weight := by
  have total := map_total_set jobs jobId job weight
  rw [found, Option.elim_some, same] at total
  exact Nat.add_right_cancel total

theorem total_left (found : jobs.get? jobId = some old) :
    mapTotal (jobs.erase jobId) weight + weight old = mapTotal jobs weight := by
  have total := map_total_erase jobs jobId weight
  rwa [found, Option.elim_some] at total

theorem weight_le_total (found : jobs.get? jobId = some old) :
    weight old ≤ mapTotal jobs weight := by
  rw [← total_left weight found]
  exact Nat.le_add_left _ _

end Totals

section Books

/-- How often a job in flight holds a key for its load. -/
def jobLoads (key : OffloadKey) (job : TransferJobStatus) : Nat :=
  if job.isStore then 0 else job.keys.count key

def jobStores (reqId : ReqId) (job : TransferJobStatus) : Nat :=
  if job.isStore = true ∧ reqId = job.reqId then 1 else 0

def heldLoads (jobs : OrderedMap JobId TransferJobStatus) (key : OffloadKey) : Nat :=
  mapTotal jobs (jobLoads key)

def openStores (jobs : OrderedMap JobId TransferJobStatus) (reqId : ReqId) : Nat :=
  mapTotal jobs (jobStores reqId)

/-- The end of the request was not signaled. -/
def Active (books : Desk M) (reqId : ReqId) : Prop :=
  ∃ request, books.requests reqId = some request ∧ request.finishedSignaled = false

/-- The manager accounts for what the books say. -/
structure Accounted (Keeps : Account M) (books : Desk M) : Prop where
  jobs : JobInv books
  named : ∀ reqId request, books.requests reqId = some request →
    request.reqContext.reqId = reqId
  keeps : Keeps books.manager (heldLoads books.jobs) (openStores books.jobs) (Active books)

theorem open_stores_none {books : Desk M} (jobs : JobInv books) {reqId : ReqId}
    (untracked : books.requests reqId = none) : openStores books.jobs reqId = 0 := by
  rw [openStores, map_total_eq_sum, List.sum_eq_zero_iff]
  intro stores member
  obtain ⟨job, listed, rfl⟩ := List.mem_map.mp member
  obtain ⟨⟨jobId, _⟩, entry, rfl⟩ := List.mem_map.mp listed
  obtain ⟨request, tracked, _⟩ :=
    jobs.owned jobId _ ((books.jobs.get_eq_some_iff _ _).mpr entry)
  rw [jobStores, if_neg]
  rintro ⟨_, same⟩
  rw [same, tracked] at untracked
  cases untracked

theorem active_enter {books : Desk M} {reqId : ReqId} {request : ReqBooks}
    (tracked : books.requests reqId = some request) (job : TransferJobStatus)
    (fenced : List Nat) (other : ReqId) (active : Active (books.enter reqId request job fenced) other) :
    Active books other := by
  obtain ⟨now, found, unsignaled⟩ := active
  rw [enter_requests] at found
  split at found
  · rename_i same
    cases found
    exact ⟨request, same ▸ tracked, unsignaled⟩
  · exact ⟨now, found, unsignaled⟩

theorem accounted_with_manager {Keeps : Account M} {books : Desk M} {manager : M}
    (accounted : Accounted Keeps books)
    (keeps : Keeps manager (heldLoads books.jobs) (openStores books.jobs) (Active books)) :
    Accounted Keeps (books.withManager manager) :=
  ⟨job_inv_with_manager accounted.jobs manager, accounted.named, keeps⟩

end Books

section Steps

variable [OffloadingManager M] {Keeps : Account M} (dutiful : Dutiful Keeps)
  {before after : Desk M} {lax : Prop}

include dutiful

/-- A job enters with what the manager has handed out for it. -/
theorem enter_accounted {books : Desk M} (accounted : Accounted Keeps books) {reqId : ReqId}
    {request : ReqBooks} (tracked : books.requests reqId = some request)
    {job : TransferJobStatus} (named : job.reqId = reqId) (fenced : List Nat) {manager : M}
    {loads : OffloadKey → Nat} (stores : ReqId → Nat)
    (keeps : Keeps manager loads stores (Active books))
    (loading : ∀ key, heldLoads books.jobs key + jobLoads key job ≤ loads key)
    (storing : ∀ other, stores other = openStores books.jobs other + jobStores other job) :
    Accounted Keeps ((books.withManager manager).enter reqId request job fenced) := by
  have fresh : books.jobs.get? books.jobCounter = none := by
    cases found : books.jobs.get? books.jobCounter with
    | none => rfl
    | some old => exact absurd (accounted.jobs.below _ old found) (Nat.lt_irrefl _)
  have tracked : (books.withManager manager).requests reqId = some request := tracked
  refine ⟨job_inv_enter (job_inv_with_manager accounted.jobs manager) tracked named fenced,
    ?_, ?_⟩
  · intro other now found
    rw [enter_requests] at found
    split at found
    · rename_i same
      cases found
      exact (accounted.named reqId request tracked).trans same.symm
    · exact accounted.named other now found
  · have counts : openStores ((books.withManager manager).enter reqId request job fenced).jobs =
        stores := funext fun other => (total_entered (jobStores other) fresh).trans
          (storing other).symm
    rw [counts]
    apply dutiful.fewer keeps
    · intro key
      exact (total_entered (jobLoads key) fresh).trans_le (loading key)
    · exact active_enter tracked job fenced

theorem move_accounted (move : Move lax before after) (accounted : Accounted Keeps before) :
    Accounted Keeps after := by
  cases move with
  | looked _ _ call => exact accounted_with_manager accounted (dutiful.looked accounted.keeps call)
  | touched keys =>
      exact accounted_with_manager accounted (dutiful.touched keys accounted.keeps)
  | @loadIssued reqId request keys blockIds manager tracked _ _ call =>
      apply enter_accounted dutiful accounted tracked rfl []
        (openStores before.jobs) (dutiful.loaded accounted.keeps call)
      · intro key
        exact Nat.add_le_add_left ((List.dedup_sublist keys).count_le key) _
      · exact fun other => rfl
  | storeDeclined _ _ call nothing =>
      exact accounted_with_manager accounted (dutiful.declined accounted.keeps call nothing)
  | @storeIssued reqId request keys _ output manager fenced deferred tracked _ call something =>
      have keeps := dutiful.stored accounted.keeps call something
      rw [accounted.named reqId request tracked] at keeps
      apply enter_accounted dutiful accounted tracked rfl _ _ keeps
      · exact fun key => le_rfl
      · intro other
        simp [jobStores]
  | scheduleEnded call =>
      exact accounted_with_manager accounted (dutiful.scheduled accounted.keeps call)
  | drained => exact accounted_with_manager accounted (dutiful.drained accounted.keeps)

theorem signal_accounted (signal : Signal lax before after) (accounted : Accounted Keeps before)
    (fences : FenceInv before) : Accounted Keeps after := by
  have jobs := (signal_keeps signal accounted.jobs fences).1
  cases signal with
  | @signaled reqId request manager tracked _ _ call =>
      have keeps := dutiful.ended accounted.keeps call
      rw [accounted.named reqId request tracked] at keeps
      refine ⟨jobs, ?_, dutiful.fewer keeps (fun _ => le_rfl) ?_⟩
      · intro other now found
        rw [with_request_requests] at found
        split at found
        · rename_i same
          unfold Desk.signaled at found
          split at found
          · cases found
          · cases found
            exact (accounted.named reqId request tracked).trans same.symm
        · exact accounted.named other now found
      · rintro other ⟨now, found, unsignaled⟩
        rw [with_request_requests] at found
        split at found
        · unfold Desk.signaled at found
          split at found
          · cases found
          · cases found
            cases unsignaled
        · rename_i different
          exact ⟨⟨now, found, unsignaled⟩, different⟩

theorem admit_accounted {reqId : ReqId} (admits : Admit reqId before after)
    (accounted : Accounted Keeps before) (fences : FenceInv before) :
    Accounted Keeps after := by
  have jobs := (admit_keeps admits accounted.jobs fences).1
  cases admits with
  | @opened _ reqContext isFinished fresh =>
      refine ⟨jobs, ?_, dutiful.fewer (dutiful.opened reqContext accounted.keeps
        (open_stores_none accounted.jobs fresh)) (fun _ => le_rfl) ?_⟩
      · intro other now found
        rw [with_request_requests] at found
        split at found
        · rename_i same
          cases found
          exact same.symm
        · exact accounted.named other now found
      · rintro other ⟨now, found, unsignaled⟩
        rw [with_request_requests] at found
        split at found
        · rename_i same
          exact .inr same
        · exact .inl ⟨now, found, unsignaled⟩
  | @passed _ reqContext manager untracked call =>
      have opened := dutiful.opened reqContext accounted.keeps
        (open_stores_none accounted.jobs untracked)
      apply accounted_with_manager accounted
      apply dutiful.fewer (dutiful.ended opened call) (fun _ => le_rfl)
      rintro other ⟨now, found, unsignaled⟩
      refine ⟨.inl ⟨now, found, unsignaled⟩, ?_⟩
      rintro rfl
      rw [untracked] at found
      cases found
  | @finished _ _ request entries tracked listed found =>
      refine ⟨jobs, ?_, dutiful.fewer accounted.keeps (fun _ => le_rfl) ?_⟩
      · intro other now isNow
        have isNow := (with_request_requests _ _ _).symm.trans isNow
        split at isNow
        · rename_i same
          cases isNow
          exact (accounted.named reqId request tracked).trans same.symm
        · exact accounted.named other now isNow
      · rintro other ⟨now, isNow, unsignaled⟩
        have isNow := (with_request_requests _ _ _).symm.trans isNow
        split at isNow
        · rename_i same
          cases isNow
          exact ⟨request, same ▸ tracked, unsignaled⟩
        · exact ⟨now, isNow, unsignaled⟩

theorem completion_keeps {books : Desk M} (accounted : Accounted Keeps books) {jobId : JobId}
    {job : TransferJobStatus} {request : ReqBooks} {manager : M}
    (found : books.jobs.get? jobId = some job)
    (tracked : books.requests job.reqId = some request)
    (call : completionCall books.manager job request.reqContext = .ok manager) :
    Keeps manager (heldLoads (books.jobs.erase jobId)) (openStores (books.jobs.erase jobId))
      (Active books) := by
  have loads : ∀ key, heldLoads (books.jobs.erase jobId) key + jobLoads key job =
      heldLoads books.jobs key := fun key => total_left (jobLoads key) found
  have stores : ∀ reqId, openStores (books.jobs.erase jobId) reqId + jobStores reqId job =
      openStores books.jobs reqId := fun reqId => total_left (jobStores reqId) found
  unfold completionCall at call
  by_cases isStore : job.isStore = true
  · rw [if_pos isStore] at call
    have lowered : ∀ reqId, openStores (books.jobs.erase jobId) reqId +
        (if reqId = request.reqContext.reqId then 1 else 0) = openStores books.jobs reqId := by
      intro reqId
      rw [← stores reqId, accounted.named job.reqId request tracked, jobStores]
      simp [isStore]
    apply dutiful.fewer (dutiful.storeCompleted accounted.keeps lowered call)
    · intro key
      rw [← loads key]
      exact Nat.le_add_right _ _
    · exact fun _ isActive => isActive
  · rw [if_neg isStore] at call
    have isLoad : job.isStore = false := by simpa using isStore
    have same : openStores (books.jobs.erase jobId) = openStores books.jobs := by
      funext reqId
      rw [← stores reqId, jobStores, isLoad]
      rfl
    rw [same]
    apply dutiful.loadCompleted accounted.keeps ?_ call
    intro key
    rw [← loads key, jobLoads, isLoad]
    rfl

theorem report_accounted {jobId : JobId} {count : Int} (report : Report jobId count before after)
    (accounted : Accounted Keeps before) (fences : FenceInv before) :
    Accounted Keeps after := by
  have jobs := (report_keeps report accounted.jobs fences).1
  cases report with
  | stale _ => exact accounted
  | @partly job _ found _ =>
      refine ⟨jobs, accounted.named, ?_⟩
      have loads : heldLoads (before.withJob jobId
          { job with pendingCount := job.pendingCount - count }).jobs = heldLoads before.jobs :=
        funext fun key => total_changed (jobLoads key) found rfl
      have stores : openStores (before.withJob jobId
          { job with pendingCount := job.pendingCount - count }).jobs =
            openStores before.jobs :=
        funext fun reqId => total_changed (jobStores reqId) found rfl
      rw [loads, stores]
      exact accounted.keeps
  | @fully job request manager fences _ found _ tracked _ call _ =>
      have kept : ∀ now, Desk.remaining request jobId = some now →
          now.reqContext = request.reqContext ∧
            now.finishedSignaled = request.finishedSignaled := by
        intro now remains
        unfold Desk.remaining at remains
        dsimp only at remains
        split at remains
        · cases remains
        · cases remains
          exact ⟨rfl, rfl⟩
      refine ⟨jobs, ?_, dutiful.fewer (completion_keeps dutiful accounted found tracked call)
        (fun _ => le_rfl) ?_⟩
      · intro other now isNow
        have isNow := (with_request_requests _ _ _).symm.trans isNow
        split at isNow
        · rename_i same
          rw [(kept now isNow).1, accounted.named job.reqId request tracked, same]
        · exact accounted.named other now isNow
      · rintro other ⟨now, isNow, unsignaled⟩
        have isNow := (with_request_requests _ _ _).symm.trans isNow
        split at isNow
        · rename_i same
          exact ⟨request, same ▸ tracked, (kept now isNow).2.symm.trans unsignaled⟩
        · exact ⟨now, isNow, unsignaled⟩

theorem finish_all_keeps (contexts : List ReqContext) {manager finished : M}
    {loads : OffloadKey → Nat} {stores : ReqId → Nat} {active : ReqId → Prop}
    (keeps : Keeps manager loads stores active)
    (calls : finishAll manager contexts = .ok finished) :
    Keeps finished loads stores
      fun reqId => active reqId ∧ ∀ reqContext ∈ contexts, reqId ≠ reqContext.reqId := by
  induction contexts generalizing manager active with
  | nil =>
      cases calls
      exact dutiful.fewer keeps (fun _ => le_rfl) fun _ isActive => isActive.1
  | cons reqContext rest ih =>
      obtain ⟨middle, call, calls⟩ := bind_eq_ok.mp calls
      apply dutiful.fewer (ih (dutiful.ended keeps call) calls) (fun _ => le_rfl)
      rintro reqId ⟨isActive, apart⟩
      exact ⟨⟨isActive, apart reqContext List.mem_cons_self⟩, fun other member =>
        apart other (List.mem_cons_of_mem _ member)⟩

theorem reset_accounted (reset : Reset before after) (accounted : Accounted Keeps before) :
    Accounted Keeps after := by
  have jobs := (reset_keeps reset accounted.jobs).1
  cases reset with
  | @reset unsent finished manager _ listed calls call =>
      have kept : ∀ other now, before.reset.requests other = some now →
          ∃ request, before.requests other = some request ∧ request.isFinished = false ∧
            now.reqContext = request.reqContext ∧
              now.finishedSignaled = request.finishedSignaled := by
        intro other now isNow
        obtain ⟨request, tracked, isNow⟩ := Option.bind_eq_some_iff.mp isNow
        split at isNow
        · cases isNow
        · rename_i unfinished
          cases isNow
          exact ⟨request, tracked, by simpa using unfinished, rfl, rfl⟩
      have keeps := dutiful.reset (finish_all_keeps dutiful _ accounted.keeps calls) call
      refine ⟨jobs, ?_, dutiful.fewer keeps (fun _ => le_rfl) ?_⟩
      · intro other now isNow
        obtain ⟨request, tracked, _, same, _⟩ := kept other now isNow
        rw [same]
        exact accounted.named other request tracked
      · rintro other ⟨now, isNow, unsignaled⟩
        obtain ⟨request, tracked, unfinished, _, same⟩ := kept other now isNow
        refine ⟨⟨request, tracked, same.symm.trans unsignaled⟩, ?_⟩
        rintro reqContext member rfl
        obtain ⟨reqId, isUnsent, isContext⟩ := List.mem_filterMap.mp member
        obtain ⟨ended, found, isFinished, _⟩ := (listed reqId).mp isUnsent
        rw [found, Option.map_some] at isContext
        cases isContext
        rw [accounted.named reqId ended found, found] at tracked
        cases tracked
        rw [isFinished] at unfinished
        cases unfinished

end Steps

section Runs

variable [OffloadingManager M] {Keeps : Account M}

/-- A dutiful manager accounts for the books in every run of the connector. -/
theorem reached_accounted (dutiful : Dutiful Keeps) {config : SchedulerOffloadConfig}
    {settings : ConnectorSettings} {mambaAlignSize : Option Nat} {manager : M}
    {clock : StaleHitLadder.Clock} {state : RunState M}
    (initial : Keeps manager (fun _ => 0) (fun _ => 0) fun _ => False)
    (reaches : EventRuns.Reaches RunState.apply RunState.Permitted
      (RunState.start config settings mambaAlignSize manager clock) state) :
    TrackedIn state.known (desk state.scheduler) ∧ Accounted Keeps (desk state.scheduler) := by
  have both := @run_rule_tracked M _ True RunState.Permitted
    (fun _ books => Accounted Keeps books ∧ FenceInv books)
    (RunState.start config settings mambaAlignSize manager clock) state
    (fun state event permitted => ⟨permitted, served_only_lax state event⟩) ?_ ?_ ?_ ?_ ?_
    ?_ ?_ reaches
  · exact ⟨both.1, both.2.1⟩
  · rintro ledger before after ⟨accounted, fences⟩ move
    exact ⟨move_accounted dutiful move accounted, (move_keeps move accounted.jobs fences).2⟩
  · rintro ledger before after ⟨accounted, fences⟩ signal
    exact ⟨signal_accounted dutiful signal accounted fences,
      (signal_keeps signal accounted.jobs fences).2⟩
  · rintro ledger before after reqId ⟨accounted, fences⟩ admits
    exact ⟨admit_accounted dutiful admits accounted fences,
      (admit_keeps admits accounted.jobs fences).2⟩
  · rintro ledger before after jobId count ⟨accounted, fences⟩ _ _ _ report
    exact ⟨report_accounted dutiful report accounted fences,
      (report_keeps report accounted.jobs fences).2⟩
  · rintro ledger before after ⟨accounted, _⟩ reset
    exact ⟨reset_accounted dutiful reset accounted, (reset_keeps reset accounted.jobs).2⟩
  · exact fun reqId request found => by cases found
  · obtain ⟨jobs, fences⟩ := start_books config settings mambaAlignSize manager clock
    refine ⟨⟨jobs, nofun, ?_⟩, fences⟩
    apply dutiful.fewer initial (fun _ => le_rfl)
    rintro reqId ⟨request, found, _⟩
    cases found

end Runs

section Recording

variable [OffloadingManager M] {R : Type} [Recorder R M] {Keeps : Account M}

/-- A record beside the manager changes nothing of its account. -/
theorem recording_dutiful (dutiful : Dutiful Keeps) :
    Dutiful fun (manager : Recording R M) => Keeps manager.inner where
  fewer keeps fewerLoads fewerActive := dutiful.fewer keeps fewerLoads fewerActive
  looked keeps call := by
    obtain ⟨inner, innerCall, rfl⟩ := lookup_told.mp call
    exact dutiful.looked keeps innerCall
  touched keys keeps := dutiful.touched keys keeps
  loaded keeps call := by
    obtain ⟨inner, innerCall, rfl⟩ := prepare_load_told.mp call
    exact dutiful.loaded keeps innerCall
  declined keeps call nothing := by
    obtain ⟨inner, innerCall, rfl⟩ := prepare_store_told.mp call
    exact dutiful.declined keeps innerCall nothing
  stored keeps call something := by
    obtain ⟨inner, innerCall, rfl⟩ := prepare_store_told.mp call
    exact dutiful.stored keeps innerCall something
  storeCompleted keeps lowered call := by
    obtain ⟨inner, innerCall, rfl⟩ := map_eq_ok.mp call
    exact dutiful.storeCompleted keeps lowered innerCall
  loadCompleted keeps lowered call := by
    obtain ⟨inner, innerCall, rfl⟩ := map_eq_ok.mp call
    exact dutiful.loadCompleted keeps lowered innerCall
  opened reqContext keeps none := dutiful.opened reqContext keeps none
  ended keeps call := by
    obtain ⟨inner, innerCall, rfl⟩ := map_eq_ok.mp call
    exact dutiful.ended keeps innerCall
  scheduled keeps call := by
    obtain ⟨inner, innerCall, rfl⟩ := map_eq_ok.mp call
    exact dutiful.scheduled keeps innerCall
  drained keeps := dutiful.drained keeps
  reset keeps call := by
    obtain ⟨inner, innerCall, rfl⟩ := map_eq_ok.mp call
    exact dutiful.reset keeps innerCall

end Recording

end KvOffload.ManagerDuties
