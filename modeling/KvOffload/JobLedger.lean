import KvOffload.ConnectorRuns
import KvOffload.LruPolicy
import KvOffload.ManagerRecords

/-!
# The job ledger over whole runs

A manager that remembers what it handed out and what it was told is complete. In every run
of the connector the completions are those of the jobs that all workers have reported,
each once and none from before a reset, and a report finds its job, its request and its
entry in the request's jobs.
-/

namespace KvOffload.JobLedger

open KvOffload KvOffload.Base KvOffload.ConnectorConfig KvOffload.ConnectorRequests
open KvOffload.ManagerInterface KvOffload.ManagerRecords KvOffload.ConnectorScheduler
open KvOffload.ConnectorCompletion
open KvOffload.JobBooks KvOffload.ConnectorMoves KvOffload.JobInvariants KvOffload.ConnectorRuns

set_option autoImplicit false

/-- The keys of a job, as the manager handed them out. -/
inductive Handout where
  | store (keys : List OffloadKey) (reqContext : ReqContext)
  | load (keys : List OffloadKey)
  deriving DecidableEq

/-- The handouts and the completions of a manager. -/
structure JobLog where
  handouts : List Handout := []
  completions : List Handout := []

namespace JobLog

variable (log : JobLog)

def handOut (handouts : List Handout) : JobLog :=
  { log with handouts := log.handouts ++ handouts }

def complete (handout : Handout) : JobLog :=
  { log with completions := log.completions ++ [handout] }

/-- What a store hands out; nothing when no key is accepted. -/
def accepted (reqContext : ReqContext) : Option PrepareStoreOutput → List Handout
  | none => []
  | some output =>
      if output.keysToStore = [] then [] else [.store output.keysToStore.dedup reqContext]

end JobLog

variable {M : Type}

instance : Recorder JobLog M where
  note log call _ _ :=
    match call with
    | .prepareStore _ reqContext output => log.handOut (JobLog.accepted reqContext output)
    | .completeStore keys reqContext => log.complete (.store keys reqContext)
    | .prepareLoad keys _ => log.handOut [.load keys.dedup]
    | .completeLoad keys => log.complete (.load keys)
    | _ => log

/-- A manager with its job log. -/
abbrev Logged (M : Type) := Recording JobLog M

def Logged.handouts (manager : Logged M) : List Handout := manager.record.handouts

def Logged.completions (manager : Logged M) : List Handout := manager.record.completions

/-- A job's handout. -/
def handoutOf (job : TransferJobStatus) (reqContext : ReqContext) : Handout :=
  if job.isStore then .store job.keys reqContext else .load job.keys

/-- The ledger beside the books: the live jobs wait for the reports that are missing, the
others of the same period are settled, and the manager has heard of the settled ones. -/
structure LedgerInv (ledger : Ledger) (books : Desk (Logged M)) : Prop where
  reset_at : books.staleJobThreshold = ledger.resetAt
  counter : books.manager.handouts.length = books.jobCounter
  unreported : ∀ jobId, books.jobCounter ≤ jobId → ledger.reported jobId = 0
  pending : ∀ jobId job, books.jobs.get? jobId = some job →
    job.pendingCount = books.numWorkers - ledger.reported jobId ∧
      0 ≤ ledger.reported jobId ∧
      (0 < ledger.reported jobId → ledger.reported jobId < books.numWorkers)
  gone : ∀ jobId, books.staleJobThreshold ≤ jobId → jobId < books.jobCounter →
    books.jobs.get? jobId = none → jobId ∈ ledger.settled
  handout : ∀ jobId job request, books.jobs.get? jobId = some job →
    books.requests job.reqId = some request →
    books.manager.handouts[jobId]? = some (handoutOf job request.reqContext)
  completions : books.manager.completions.map some =
    ledger.settled.map fun jobId => books.manager.handouts[jobId]?
  settled_once : ledger.settled.Nodup
  settled_done : ∀ jobId ∈ ledger.settled, ledger.reported jobId = books.numWorkers ∧
    0 < ledger.reported jobId ∧ jobId < books.jobCounter

/-- A manager call that neither hands out nor completes a job. -/
def Quiet (manager after : Logged M) : Prop :=
  after.handouts = manager.handouts ∧ after.completions = manager.completions

theorem ledger_inv_quiet {ledger : Ledger} {books : Desk (Logged M)} {manager : Logged M}
    (inv : LedgerInv ledger books) (quiet : Quiet books.manager manager) :
    LedgerInv ledger (books.withManager manager) := by
  obtain ⟨handouts, completions⟩ := quiet
  refine ⟨inv.reset_at, ?_, inv.unreported, inv.pending, inv.gone, ?_, ?_, inv.settled_once,
    inv.settled_done⟩
  · exact (congrArg List.length handouts).trans inv.counter
  · intro jobId job request found tracked
    exact (congrArg (·[jobId]?) handouts).trans (inv.handout jobId job request found tracked)
  · change manager.completions.map some = ledger.settled.map fun jobId => manager.handouts[jobId]?
    rw [completions, handouts]
    exact inv.completions

section Calls

variable [OffloadingManager M] {manager after : Logged M}

theorem lookup_quiet {key : OffloadKey} {reqContext : ReqContext} {result : LookupResult}
    (call : OffloadingLookup.lookup manager key reqContext = .ok (result, after)) :
    Quiet manager after := by
  obtain ⟨_, _, rfl⟩ := lookup_told.mp call
  exact ⟨rfl, rfl⟩

theorem on_request_finished_quiet {reqContext : ReqContext}
    (call : OffloadingManager.onRequestFinished manager reqContext = .ok after) :
    Quiet manager after := by
  obtain ⟨_, _, same⟩ := map_eq_ok.mp call
  cases same
  exact ⟨rfl, rfl⟩

theorem on_schedule_end_quiet {context : ScheduleEndContext}
    (call : OffloadingManager.onScheduleEnd manager context = .ok after) :
    Quiet manager after := by
  obtain ⟨_, _, same⟩ := map_eq_ok.mp call
  cases same
  exact ⟨rfl, rfl⟩

theorem reset_cache_quiet (call : OffloadingManager.resetCache manager = .ok after) :
    Quiet manager after := by
  obtain ⟨_, _, same⟩ := map_eq_ok.mp call
  cases same
  exact ⟨rfl, rfl⟩

theorem finish_all_quiet (contexts : List ReqContext) {manager : Logged M}
    (calls : finishAll manager contexts = .ok after) : Quiet manager after := by
  induction contexts generalizing manager with
  | nil =>
      cases calls
      exact ⟨rfl, rfl⟩
  | cons reqContext rest ih =>
      obtain ⟨middle, call, calls⟩ := bind_eq_ok.mp calls
      have first := on_request_finished_quiet call
      have later := ih calls
      exact ⟨later.1.trans first.1, later.2.trans first.2⟩

theorem prepare_load_hands_out {keys : List OffloadKey} {blockIds : List Nat}
    (call : OffloadingManager.prepareLoad manager keys = .ok (blockIds, after)) :
    after.handouts = manager.handouts ++ [.load keys.dedup] ∧
      after.completions = manager.completions := by
  obtain ⟨_, _, rfl⟩ := prepare_load_told.mp call
  exact ⟨rfl, rfl⟩

theorem prepare_store_hands_out {keys : List OffloadKey} {reqContext : ReqContext}
    {bypassThreshold : Bool} {output : Option PrepareStoreOutput}
    (call : OffloadingManager.prepareStore manager keys reqContext bypassThreshold =
      .ok (output, after)) :
    after.handouts = manager.handouts ++ JobLog.accepted reqContext output ∧
      after.completions = manager.completions := by
  obtain ⟨_, _, rfl⟩ := prepare_store_told.mp call
  exact ⟨rfl, rfl⟩

theorem completion_call_logs {job : TransferJobStatus} {reqContext : ReqContext}
    (call : completionCall manager job reqContext = .ok after) :
    after.handouts = manager.handouts ∧
      after.completions = manager.completions ++ [handoutOf job reqContext] := by
  unfold completionCall at call
  unfold handoutOf
  by_cases isStore : job.isStore = true
  · rw [if_pos isStore] at call ⊢
    obtain ⟨_, _, same⟩ := map_eq_ok.mp call
    cases same
    exact ⟨rfl, rfl⟩
  · rw [if_neg isStore] at call ⊢
    obtain ⟨_, _, same⟩ := map_eq_ok.mp call
    cases same
    exact ⟨rfl, rfl⟩

end Calls

section Steps

variable {ledger : Ledger} {books : Desk (Logged M)}

/-- Requests change, but those with jobs keep their contexts. -/
theorem ledger_inv_requests {after : Desk (Logged M)} (inv : LedgerInv ledger books)
    (quiet : Quiet books.manager after.manager) (jobs : after.jobs = books.jobs)
    (workers : after.numWorkers = books.numWorkers) (counter : after.jobCounter = books.jobCounter)
    (threshold : after.staleJobThreshold = books.staleJobThreshold)
    (contexts : ∀ jobId job now, books.jobs.get? jobId = some job →
      after.requests job.reqId = some now →
      ∃ request, books.requests job.reqId = some request ∧
        request.reqContext = now.reqContext) :
    LedgerInv ledger after := by
  have moved := ledger_inv_quiet inv quiet
  constructor
  · rw [threshold]
    exact inv.reset_at
  · rw [counter]
    exact moved.counter
  · rw [counter]
    exact inv.unreported
  · rw [jobs, workers]
    exact inv.pending
  · rw [threshold, counter, jobs]
    exact inv.gone
  · intro jobId job now found tracked
    rw [jobs] at found
    obtain ⟨request, before, same⟩ := contexts jobId job now found tracked
    rw [← same]
    exact moved.handout jobId job request found before
  · exact moved.completions
  · exact inv.settled_once
  · rw [counter, workers]
    exact inv.settled_done

/-- A job that enters was handed out last. -/
theorem ledger_inv_enter (inv : LedgerInv ledger books) (jobs : JobInv books) {reqId : ReqId}
    {request : ReqBooks} (tracked : books.requests reqId = some request)
    {job : TransferJobStatus} (named : job.reqId = reqId)
    (waits : job.pendingCount = books.numWorkers) (fenced : List Nat) {manager : Logged M}
    (handouts : manager.handouts =
      books.manager.handouts ++ [handoutOf job request.reqContext])
    (completions : manager.completions = books.manager.completions) :
    LedgerInv ledger ((books.withManager manager).enter reqId request job fenced) := by
  have fresh := inv.unreported books.jobCounter le_rfl
  have earlier : ∀ jobId < books.jobCounter,
      manager.handouts[jobId]? = books.manager.handouts[jobId]? := by
    intro jobId below
    rw [handouts]
    exact List.getElem?_append_left (inv.counter.symm ▸ below)
  have get_job : ∀ jobId, ((books.withManager manager).enter reqId request job
      fenced).jobs.get? jobId = if jobId = books.jobCounter then some job
      else books.jobs.get? jobId := get_enter_job job fenced
  constructor
  · exact inv.reset_at
  · change manager.handouts.length = books.jobCounter + 1
    rw [handouts, List.length_append, inv.counter]
    rfl
  · intro jobId later
    exact inv.unreported jobId (Nat.le_of_succ_le later)
  · intro jobId found_job found
    rw [get_job] at found
    split at found
    · rename_i same
      cases found
      rw [same, fresh]
      exact ⟨waits.trans (Int.sub_zero _).symm, le_rfl, fun positive => absurd positive (by simp)⟩
    · exact inv.pending jobId found_job found
  · intro jobId low below absent
    rw [get_job] at absent
    split at absent
    · cases absent
    · rename_i different
      exact inv.gone jobId low (Nat.lt_of_le_of_ne (Nat.le_of_lt_succ below) different) absent
  · intro jobId found_job now found nowTracked
    change manager.handouts[jobId]? = _
    rw [get_job] at found
    have nowTracked := (enter_requests job fenced _).symm.trans nowTracked
    split at found
    · rename_i same
      cases found
      rw [if_pos named] at nowTracked
      cases nowTracked
      rw [handouts, same, ← inv.counter]
      exact List.getElem?_concat_length
    · rw [earlier jobId (jobs.below jobId found_job found)]
      split at nowTracked
      · rename_i same
        cases nowTracked
        exact inv.handout jobId found_job request found (same ▸ tracked)
      · exact inv.handout jobId found_job now found nowTracked
  · change manager.completions.map some = ledger.settled.map fun jobId => manager.handouts[jobId]?
    rw [completions, inv.completions]
    apply List.map_congr_left
    intro jobId member
    exact (earlier jobId (inv.settled_done jobId member).2.2).symm
  · exact inv.settled_once
  · intro jobId member
    obtain ⟨done, positive, below⟩ := inv.settled_done jobId member
    exact ⟨done, positive, below.trans (Nat.lt_succ_self _)⟩

variable [OffloadingManager M] {after : Desk (Logged M)} {lax : Prop}

theorem move_ledger (move : Move lax books after) (inv : LedgerInv ledger books)
    (jobs : JobInv books) : LedgerInv ledger after := by
  cases move with
  | looked _ _ call => exact ledger_inv_quiet inv (lookup_quiet call)
  | touched _ => exact ledger_inv_quiet inv ⟨rfl, rfl⟩
  | loadIssued tracked _ _ call =>
      obtain ⟨handouts, completions⟩ := prepare_load_hands_out call
      apply ledger_inv_enter inv jobs
      · exact tracked
      · rfl
      · rfl
      · exact handouts
      · exact completions
  | storeDeclined _ _ call nothing =>
      obtain ⟨handouts, completions⟩ := prepare_store_hands_out call
      apply ledger_inv_quiet inv
      refine ⟨handouts.trans ?_, completions⟩
      rename_i output _ _ _
      cases output with
      | none => exact List.append_nil _
      | some output =>
          rw [JobLog.accepted, if_pos (nothing output rfl)]
          exact List.append_nil _
  | storeIssued tracked _ call something =>
      obtain ⟨handouts, completions⟩ := prepare_store_hands_out call
      rw [JobLog.accepted, if_neg something] at handouts
      apply ledger_inv_enter inv jobs
      · exact tracked
      · rfl
      · rfl
      · exact handouts
      · exact completions
  | scheduleEnded call => exact ledger_inv_quiet inv (on_schedule_end_quiet call)
  | drained => exact ledger_inv_quiet inv ⟨rfl, rfl⟩

theorem signal_ledger (signal : Signal lax books after) (inv : LedgerInv ledger books) :
    LedgerInv ledger after := by
  cases signal with
  | @signaled reqId request manager tracked _ _ call =>
      apply ledger_inv_requests inv (on_request_finished_quiet call)
      · rfl
      · rfl
      · rfl
      · rfl
      · intro jobId job now found nowTracked
        have nowTracked := (with_request_requests _ _ _).symm.trans nowTracked
        split at nowTracked
        · rename_i same
          rw [same]
          refine ⟨request, tracked, ?_⟩
          unfold Desk.signaled at nowTracked
          split at nowTracked
          · cases nowTracked
          · cases nowTracked
            rfl
        · exact ⟨now, nowTracked, rfl⟩

theorem admit_ledger {reqId : ReqId} (admits : Admit reqId books after)
    (inv : LedgerInv ledger books) (jobs : JobInv books) : LedgerInv ledger after := by
  cases admits with
  | opened _ fresh =>
      apply ledger_inv_requests inv
      · exact ⟨rfl, rfl⟩
      · rfl
      · rfl
      · rfl
      · rfl
      · intro jobId job now found nowTracked
        have nowTracked := (with_request_requests _ _ _).symm.trans nowTracked
        split at nowTracked
        · rename_i same
          obtain ⟨owner, ownerTracked, _⟩ := jobs.owned jobId job found
          rw [same] at ownerTracked
          cases ownerTracked.symm.trans fresh
        · exact ⟨now, nowTracked, rfl⟩
  | passed _ call =>
      have quiet := on_request_finished_quiet call
      exact ledger_inv_quiet inv quiet
  | @finished _ _ request _ tracked _ _ =>
      apply ledger_inv_requests inv
      · exact ⟨rfl, rfl⟩
      · rfl
      · rfl
      · rfl
      · rfl
      · intro jobId job now found nowTracked
        have nowTracked := (with_request_requests _ _ _).symm.trans nowTracked
        split at nowTracked
        · rename_i same
          cases nowTracked
          rw [same]
          exact ⟨request, tracked, rfl⟩
        · exact ⟨now, nowTracked, rfl⟩

omit [OffloadingManager M] in
theorem note_reported (numWorkers : Nat) (ledger : Ledger) (jobId other : JobId) (count : Int) :
    (ledger.note numWorkers (jobId, count)).reported other =
      if other = jobId then ledger.reported jobId + count else ledger.reported other :=
  Function.update_apply ..

omit [OffloadingManager M] in
/-- A job that is settled has no report left. -/
theorem not_settled_of_room (inv : LedgerInv ledger books) {jobId : JobId} {count : Int}
    (positive : 0 < count) (room : ledger.reported jobId + count ≤ books.numWorkers) :
    jobId ∉ ledger.settled := by
  intro member
  have done := (inv.settled_done jobId member).1
  omega

omit [OffloadingManager M] in
/-- A report that settles nothing. -/
theorem note_open (inv : LedgerInv ledger books) {jobId : JobId} {count : Int}
    (positive : 0 < count) (room : ledger.reported jobId + count ≤ books.numWorkers)
    (opened : ¬(ledger.resetAt ≤ jobId ∧ ledger.reported jobId + count = books.numWorkers)) :
    (ledger.note books.numWorkers (jobId, count)).settled = ledger.settled ∧
      ∀ other ∈ ledger.settled,
        (ledger.note books.numWorkers (jobId, count)).reported other = ledger.reported other := by
  refine ⟨if_neg opened, fun other member => ?_⟩
  rw [note_reported, if_neg]
  rintro rfl
  exact not_settled_of_room inv positive room member

omit [OffloadingManager M] in
theorem stale_ledger (inv : LedgerInv ledger books) {jobId : JobId} {count : Int}
    (stale : jobId < books.staleJobThreshold) (positive : 0 < count)
    (room : ledger.reported jobId + count ≤ books.numWorkers) (jobs : JobInv books) :
    LedgerInv (ledger.note books.numWorkers (jobId, count)) books := by
  obtain ⟨settled, kept⟩ := note_open inv positive room fun closes =>
    absurd closes.1 (Nat.not_le_of_lt (inv.reset_at ▸ stale))
  have other : ∀ found, books.staleJobThreshold ≤ found →
      (ledger.note books.numWorkers (jobId, count)).reported found = ledger.reported found := by
    intro found live
    rw [note_reported, if_neg (Nat.ne_of_gt (stale.trans_le live))]
  refine ⟨inv.reset_at, inv.counter, ?_, ?_, ?_, inv.handout, ?_, ?_, ?_⟩
  · intro found later
    rw [other found (jobs.bounded.trans later)]
    exact inv.unreported found later
  · intro found job present
    rw [other found (jobs.live found job present)]
    exact inv.pending found job present
  · rw [settled]
    exact inv.gone
  · rw [settled]
    exact inv.completions
  · rw [settled]
    exact inv.settled_once
  · rw [settled]
    intro found member
    rw [kept found member]
    exact inv.settled_done found member

omit [OffloadingManager M] in
theorem partly_ledger (inv : LedgerInv ledger books) (jobs : JobInv books) {jobId : JobId}
    {count : Int} {job : TransferJobStatus} (found : books.jobs.get? jobId = some job)
    (positive : 0 < count) (room : ledger.reported jobId + count ≤ books.numWorkers)
    (more : 0 < job.pendingCount - count) :
    LedgerInv (ledger.note books.numWorkers (jobId, count))
      (books.withJob jobId { job with pendingCount := job.pendingCount - count }) := by
  obtain ⟨waits, nonneg, _⟩ := inv.pending jobId job found
  obtain ⟨settled, kept⟩ := note_open inv positive room fun closes => by omega
  have get_job : ∀ other, (books.withJob jobId
      { job with pendingCount := job.pendingCount - count }).jobs.get? other =
      if other = jobId then some { job with pendingCount := job.pendingCount - count }
      else books.jobs.get? other := fun other => OrderedMap.get_set ..
  constructor
  · exact inv.reset_at
  · exact inv.counter
  · intro other later
    rw [note_reported, if_neg]
    · exact inv.unreported other later
    · rintro rfl
      exact absurd (jobs.below other job found) (Nat.not_lt_of_le later)
  · intro other now present
    change now.pendingCount = books.numWorkers - _ ∧ _
    rw [get_job] at present
    rw [note_reported]
    split at present
    · rename_i same
      cases present
      rw [if_pos same]
      refine ⟨?_, by omega, fun _ => ?_⟩
      · change job.pendingCount - count = _
        omega
      · change _ < (books.numWorkers : Int)
        omega
    · rename_i different
      rw [if_neg different]
      exact inv.pending other now present
  · intro other low below absent
    rw [get_job] at absent
    rw [settled]
    split at absent
    · cases absent
    · exact inv.gone other low below absent
  · intro other now request present tracked
    rw [get_job] at present
    split at present
    · rename_i same
      cases present
      rw [same]
      exact inv.handout jobId job request found tracked
    · exact inv.handout other now request present tracked
  · rw [settled]
    exact inv.completions
  · rw [settled]
    exact inv.settled_once
  · rw [settled]
    intro other member
    rw [kept other member]
    exact inv.settled_done other member

theorem report_ledger {jobId : JobId} {count : Int} (report : Report jobId count books after)
    (inv : LedgerInv ledger books) (jobs : JobInv books) (positive : 0 < count)
    (room : ledger.reported jobId + count ≤ books.numWorkers) :
    LedgerInv (ledger.note books.numWorkers (jobId, count)) after := by
  cases report with
  | stale before => exact stale_ledger inv before positive room jobs
  | partly _ found more => exact partly_ledger inv jobs found positive room more
  | @fully job request manager fences live found closed tracked listed call _ =>
      obtain ⟨handouts, completions⟩ := completion_call_logs call
      obtain ⟨waits, nonneg, _⟩ := inv.pending jobId job found
      have full : ledger.reported jobId + count = books.numWorkers := by omega
      have fresh := not_settled_of_room inv positive room
      have settled : (ledger.note books.numWorkers (jobId, count)).settled =
          ledger.settled ++ [jobId] := if_pos ⟨inv.reset_at ▸ live, full⟩
      have get_job : ∀ other, ((((books.withManager manager).withFences fences).dropJob
          jobId).withRequest job.reqId (Desk.remaining request jobId)).jobs.get? other =
          if other = jobId then none else books.jobs.get? other := get_drop_job
      constructor
      · exact inv.reset_at
      · exact (congrArg List.length handouts).trans inv.counter
      · intro other later
        rw [note_reported, if_neg]
        · exact inv.unreported other later
        · rintro rfl
          exact absurd (jobs.below other job found) (Nat.not_lt_of_le later)
      · intro other now present
        change now.pendingCount = books.numWorkers - _ ∧ _
        rw [get_job] at present
        split at present
        · cases present
        · rename_i different
          rw [note_reported, if_neg different]
          exact inv.pending other now present
      · intro other low below absent
        rw [get_job] at absent
        rw [settled, List.mem_append]
        split at absent
        · rename_i same
          exact .inr (List.mem_singleton.mpr same)
        · exact .inl (inv.gone other low below absent)
      · intro other now owner present ownerTracked
        change manager.handouts[other]? = _
        rw [handouts]
        rw [get_job] at present
        have ownerTracked := (with_request_requests _ _ _).symm.trans ownerTracked
        split at present
        · cases present
        · split at ownerTracked
          · rename_i same
            have context : owner.reqContext = request.reqContext := by
              unfold Desk.remaining at ownerTracked
              dsimp only at ownerTracked
              split at ownerTracked
              · cases ownerTracked
              · cases ownerTracked
                rfl
            rw [context]
            exact inv.handout other now request present (same ▸ tracked)
          · exact inv.handout other now owner present ownerTracked
      · change manager.completions.map some = _
        rw [completions, settled, List.map_append, List.map_append, inv.completions]
        have logs : ∀ other : JobId, manager.handouts[other]? = books.manager.handouts[other]? :=
          fun other => by rw [handouts]
        change _ = (ledger.settled.map fun other : JobId => manager.handouts[other]?) ++
          [manager.handouts[jobId]?]
        simp only [logs]
        rw [inv.handout jobId job request found tracked]
        rfl
      · rw [settled]
        exact List.nodup_append.mpr ⟨inv.settled_once, List.nodup_singleton _, by
          rintro other member last lastMember rfl
          exact fresh (List.mem_singleton.mp lastMember ▸ member)⟩
      · rw [settled]
        intro other member
        rw [note_reported]
        rcases List.mem_append.mp member with old | new
        · have different : other ≠ jobId := fun same => fresh (same ▸ old)
          rw [if_neg different]
          exact inv.settled_done other old
        · rw [List.mem_singleton.mp new, if_pos rfl]
          exact ⟨full, by omega, jobs.below jobId job found⟩

theorem reset_ledger (reset : Reset books after) (inv : LedgerInv ledger books) :
    LedgerInv (ledger.reset books.jobCounter) after := by
  cases reset with
  | reset _ _ calls call =>
      have quiet := reset_cache_quiet call
      have first := finish_all_quiet _ calls
      have moved := ledger_inv_quiet inv ⟨quiet.1.trans first.1, quiet.2.trans first.2⟩
      refine ⟨rfl, moved.counter, inv.unreported, nofun, ?_, nofun, moved.completions,
        inv.settled_once, inv.settled_done⟩
      intro jobId low below _
      exact absurd below (Nat.not_lt_of_le low)

end Steps

section Failures

variable [OffloadingManager M] {scheduler : OffloadingConnectorScheduler M}

/-- Why the report of a job that has all its places in the books fails. -/
theorem report_job_error {jobId : JobId} {count : Int}
    {problem : PyError} (jobs : JobInv (desk scheduler)) (positive : 0 < count)
    (found : scheduler.staleJobThreshold ≤ jobId → ∃ job, scheduler.jobs.get? jobId = some job ∧
      count ≤ job.pendingCount)
    (failed : reportJob scheduler jobId count = .error problem) :
    problem = .keyError .blockIdToPendingJobs ∨
      ∃ job status, scheduler.jobs.get? jobId = some job ∧ job.pendingCount = count ∧
        scheduler.reqStatus.get? job.reqId = some status ∧
        completionCall scheduler.manager job status.reqContext = .error problem := by
  by_cases live : scheduler.staleJobThreshold ≤ jobId
  · obtain ⟨job, present, room⟩ := found live
    obtain ⟨request, tracked, listed⟩ := jobs.owned jobId job present
    obtain ⟨status, statusFound, rfl⟩ := status_of_tracked tracked
    by_cases more : 0 < job.pendingCount - count
    · have isJob : scheduler.jobStatus jobId = .ok job := py_item_eq_ok.mpr present
      unfold reportJob at failed
      rw [py_assert_of positive, ok_bind, if_neg (Nat.not_lt_of_le live), isJob, ok_bind] at failed
      dsimp only at failed
      rw [if_pos more] at failed
      cases failed
    · rw [report_job_closes positive live present (by omega) statusFound] at failed
      cases call : completionCall scheduler.manager job status.reqContext with
      | error raised =>
          rw [call] at failed
          cases failed
          exact .inr ⟨job, status, present, by omega, statusFound, call⟩
      | ok manager =>
          rw [call, ok_bind] at failed
          dsimp only at failed
          rw [drop_fences_eq] at failed
          split at failed
          · obtain ⟨last, done, _⟩ := drop_job_ok listed
            rw [ok_bind] at failed
            cases done.symm.trans failed
          · split at failed
            · obtain ⟨last, done, _⟩ := drop_job_ok listed
              rw [ok_bind] at failed
              cases done.symm.trans failed
            · cases failed
              exact .inl rfl
  · unfold reportJob at failed
    rw [py_assert_of positive, ok_bind, if_pos (Nat.lt_of_not_le live)] at failed
    cases failed

/-- Everything that holds of the books beside the ledger. -/
structure BookInv (ledger : Ledger) (books : Desk (Logged M)) : Prop where
  jobs : JobInv books
  fences : FenceInv books
  ledger : LedgerInv ledger books

theorem report_book_inv {ledger : Ledger} {before after : Desk (Logged M)} {jobId : JobId}
    {count : Int} (inv : BookInv ledger before) (positive : 0 < count)
    (room : ledger.reported jobId + count ≤ before.numWorkers)
    (report : Report jobId count before after) :
    BookInv (ledger.note before.numWorkers (jobId, count)) after := by
  obtain ⟨jobs, fences⟩ := report_keeps report inv.jobs inv.fences
  exact ⟨jobs, fences, report_ledger report inv.ledger inv.jobs positive room⟩

omit [OffloadingManager M] in
/-- A report of an issued job with reports left finds the job. -/
theorem reportable_job {ledger : Ledger} {books : Desk (Logged M)} {jobId : JobId} {count : Int}
    (inv : BookInv ledger books) (issued : jobId < books.jobCounter) (positive : 0 < count)
    (room : ledger.reported jobId + count ≤ books.numWorkers)
    (live : books.staleJobThreshold ≤ jobId) :
    ∃ job, books.jobs.get? jobId = some job ∧ count ≤ job.pendingCount := by
  cases found : books.jobs.get? jobId with
  | none =>
      exact absurd (inv.ledger.gone jobId live issued found)
        (not_settled_of_room inv.ledger positive room)
  | some job =>
      have waits := (inv.ledger.pending jobId job found).1
      exact ⟨job, rfl, by omega⟩

end Failures

section Runs

variable [OffloadingManager M]

/-- The manager has heard of exactly the jobs that all workers have reported, each once and
none from before a reset; the live jobs are those their requests list, and a request that
was signaled stays exactly while it has one. -/
structure LedgerKept (state : RunState (Logged M)) : Prop where
  issued : state.scheduler.manager.handouts.length = state.scheduler.jobCounter
  completions : state.scheduler.manager.completions.map some =
    state.ledger.settled.map fun jobId => state.scheduler.manager.handouts[jobId]?
  once : state.ledger.settled.Nodup
  settled_iff : ∀ jobId, state.ledger.resetAt ≤ jobId → jobId < state.scheduler.jobCounter →
    (jobId ∈ state.ledger.settled ↔ 0 < state.ledger.reported jobId ∧
      state.ledger.reported jobId = state.scheduler.config.numWorkers)
  live_iff : ∀ jobId, (∃ job, state.scheduler.jobs.get? jobId = some job) ↔
    state.ledger.resetAt ≤ jobId ∧ jobId < state.scheduler.jobCounter ∧
      jobId ∉ state.ledger.settled
  owned : ∀ jobId job, state.scheduler.jobs.get? jobId = some job →
    ∃ status, state.scheduler.reqStatus.get? job.reqId = some status ∧
      jobId ∈ status.transferJobs
  listed : ∀ reqId status, state.scheduler.reqStatus.get? reqId = some status →
    ∀ jobId ∈ status.transferJobs, ∃ job, state.scheduler.jobs.get? jobId = some job ∧
      job.reqId = reqId
  busy : ∀ reqId status, state.scheduler.reqStatus.get? reqId = some status →
    status.finishedSignaled = true → status.transferJobs ≠ []

omit [OffloadingManager M] in
theorem ledger_kept_of_inv {state : RunState (Logged M)}
    (inv : BookInv state.ledger (desk state.scheduler)) : LedgerKept state := by
  obtain ⟨jobs, _, ledger⟩ := inv
  have open_of_live : ∀ jobId job, state.scheduler.jobs.get? jobId = some job →
      jobId ∉ state.ledger.settled := by
    intro jobId job found member
    obtain ⟨done, positive, _⟩ := ledger.settled_done jobId member
    exact absurd done (ne_of_lt ((ledger.pending jobId job found).2.2 positive))
  constructor
  · exact ledger.counter
  · exact ledger.completions
  · exact ledger.settled_once
  · intro jobId low below
    constructor
    · intro member
      obtain ⟨done, positive, _⟩ := ledger.settled_done jobId member
      exact ⟨positive, done⟩
    · rintro ⟨positive, done⟩
      by_contra missing
      cases found : state.scheduler.jobs.get? jobId with
      | none => exact missing (ledger.gone jobId (ledger.reset_at.trans_le low) below found)
      | some job =>
          exact absurd done (ne_of_lt ((ledger.pending jobId job found).2.2 positive))
  · intro jobId
    constructor
    · rintro ⟨job, found⟩
      exact ⟨ledger.reset_at ▸ jobs.live jobId job found, jobs.below jobId job found,
        open_of_live jobId job found⟩
    · rintro ⟨low, below, missing⟩
      cases found : state.scheduler.jobs.get? jobId with
      | none => exact absurd (ledger.gone jobId (ledger.reset_at.trans_le low) below found) missing
      | some job => exact ⟨job, rfl⟩
  · intro jobId job found
    obtain ⟨request, tracked, member⟩ := jobs.owned jobId job found
    obtain ⟨status, statusFound, rfl⟩ := status_of_tracked tracked
    exact ⟨status, statusFound, member⟩
  · exact fun reqId status found => jobs.listed reqId _ (tracked_of_status found)
  · exact fun reqId status found signaled =>
      (jobs.busy reqId _ (tracked_of_status found) signaled).1

omit [OffloadingManager M] in
theorem start_book_inv (config : SchedulerOffloadConfig) (settings : ConnectorSettings)
    (mambaAlignSize : Option Nat) (manager : M) (clock : StaleHitLadder.Clock) :
    BookInv {} (desk (RunState.start config settings mambaAlignSize
      (⟨manager, {}⟩ : Logged M) clock).scheduler) where
  jobs := (start_books ..).1
  fences := (start_books ..).2
  ledger := ⟨rfl, rfl, fun _ _ => rfl, nofun, fun jobId _ below _ =>
    absurd below (Nat.not_lt_zero jobId), nofun, rfl, List.nodup_nil, nofun⟩

theorem reached_book_inv {config : SchedulerOffloadConfig} {settings : ConnectorSettings}
    {mambaAlignSize : Option Nat} {manager : M} {clock : StaleHitLadder.Clock}
    {state : RunState (Logged M)}
    (reaches : EventRuns.Reaches RunState.apply RunState.Permitted
      (RunState.start config settings mambaAlignSize ⟨manager, {}⟩ clock) state) :
    BookInv state.ledger (desk state.scheduler) := by
  apply @run_rule (Logged M) _ True RunState.Permitted BookInv _ state _ _ _ _ _ _ _
    (start_book_inv config settings mambaAlignSize manager clock) reaches
  · exact fun state event permitted => ⟨permitted, served_only_lax state event⟩
  · intro ledger before after inv move
    obtain ⟨jobs, fences⟩ := move_keeps move inv.jobs inv.fences
    exact ⟨jobs, fences, move_ledger move inv.ledger inv.jobs⟩
  · intro ledger before after inv signal
    obtain ⟨jobs, fences⟩ := signal_keeps signal inv.jobs inv.fences
    exact ⟨jobs, fences, signal_ledger signal inv.ledger⟩
  · intro ledger before after reqId inv admits
    obtain ⟨jobs, fences⟩ := admit_keeps admits inv.jobs inv.fences
    exact ⟨jobs, fences, admit_ledger admits inv.ledger inv.jobs⟩
  · intro ledger before after jobId count inv _ positive room report
    exact report_book_inv inv positive room report
  · intro ledger before after inv reset
    obtain ⟨jobs, fences⟩ := reset_keeps reset inv.jobs
    exact ⟨jobs, fences, reset_ledger reset inv.ledger⟩
  · exact fun reqId request found => by cases found

/-- Every run over any manager keeps the ledger. -/
theorem ledger_kept {config : SchedulerOffloadConfig} {settings : ConnectorSettings}
    {mambaAlignSize : Option Nat} {manager : M} {clock : StaleHitLadder.Clock}
    {state : RunState (Logged M)}
    (reaches : EventRuns.Reaches RunState.apply RunState.Permitted
      (RunState.start config settings mambaAlignSize ⟨manager, {}⟩ clock) state) :
    LedgerKept state :=
  ledger_kept_of_inv (reached_book_inv reaches)

end Runs

def duoGroups : List OffloadingGroupConfig := [⟨2, 0⟩]

/-- One full-attention group with blocks of two tokens, and two workers. -/
def duoSpec : OffloadingSpec where
  groups := duoGroups
  kvCacheGroups := [⟨.fullAttention, false⟩]
  blocksPerChunk := 1
  tokensPerHash := 2
  worldSize := 2
  decodeContextParallelSize := 1
  offloadPromptOnly := false
  useEagle := false
  ordered := by decide
  bounded := by decide
  blocks_pos := Nat.one_pos
  hash_pos := Nat.two_pos
  hash_fits := by decide

end KvOffload.JobLedger
