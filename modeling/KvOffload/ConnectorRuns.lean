import KvOffload.EventRuns
import KvOffload.JobInvariants

/-!
# Runs of the connector

The calls that reach the connector scheduler, in any order: new requests, changes the
scheduler core makes to them, admissions, steps, reports of the workers, finishes and
resets. Beside the scheduler the run keeps what an onlooker knows: the ids in use, the
reports that have arrived for each job, and the jobs they have settled.
-/

namespace KvOffload.ConnectorRuns

open KvOffload KvOffload.Base KvOffload.ConnectorConfig KvOffload.ConnectorRequests
open KvOffload.ManagerInterface KvOffload.ConnectorScheduler KvOffload.ConnectorLoads
open KvOffload.ConnectorStores KvOffload.ConnectorCompletion KvOffload.JobBooks
open KvOffload.ConnectorMoves KvOffload.ConnectorBuilds KvOffload.JobInvariants

set_option autoImplicit false

inductive ConnectorEvent where
  | newRequest (req : Request)
  | requestChanged (req : Request)
  | getNumNewMatchedTokens (reqId : ReqId) (numComputedTokens : Nat)
  | updateStateAfterAlloc (reqId : ReqId) (blocks : List (List KVCacheBlock))
      (numExternalTokens : Nat)
  | buildConnectorMeta (output : SchedulerOutput)
  | updateConnectorOutput (completedJobs : List (JobId × Int))
  | requestFinished (req : Request)
  | resetCache

/-- What the reports say: how many workers have reported a job, where the ids of jobs
issued since the last reset start, and which jobs had all their reports since, in order. -/
structure Ledger where
  reported : JobId → Int := fun _ => 0
  resetAt : JobId := 0
  settled : List JobId := []

namespace Ledger

def note (numWorkers : Nat) (ledger : Ledger) (report : JobId × Int) : Ledger where
  reported := Function.update ledger.reported report.1 (ledger.reported report.1 + report.2)
  resetAt := ledger.resetAt
  settled :=
    if ledger.resetAt ≤ report.1 ∧ ledger.reported report.1 + report.2 = numWorkers then
      ledger.settled ++ [report.1]
    else ledger.settled

def noteAll (numWorkers : Nat) (ledger : Ledger) (reports : List (JobId × Int)) : Ledger :=
  reports.foldl (note numWorkers) ledger

def reset (ledger : Ledger) (jobCounter : JobId) : Ledger :=
  { ledger with resetAt := jobCounter }

end Ledger

/-- The workers report issued jobs, each worker a job at most once. -/
def Reportable (numWorkers : Nat) (jobCounter : JobId) : Ledger → List (JobId × Int) → Prop
  | _, [] => True
  | ledger, report :: rest =>
      (report.1 < jobCounter ∧ 0 < report.2 ∧
        ledger.reported report.1 + report.2 ≤ numWorkers) ∧
      Reportable numWorkers jobCounter (ledger.note numWorkers report) rest

instance decidableReportable (numWorkers : Nat) (jobCounter : JobId) :
    (reports : List (JobId × Int)) → (ledger : Ledger) →
      Decidable (Reportable numWorkers jobCounter ledger reports)
  | [], _ => .isTrue trivial
  | report :: rest, ledger =>
      @instDecidableAnd _ _ inferInstance
        (decidableReportable numWorkers jobCounter rest (ledger.note numWorkers report))

/-- `unsent` are the jobs in flight at resets whose ids no step has sent yet, and
`stepping` tells that blocks were allocated since the last step. -/
structure RunState (M : Type) where
  scheduler : OffloadingConnectorScheduler M
  known : Finset ReqId := ∅
  ledger : Ledger := {}
  unsent : Finset JobId := ∅
  stepping : Bool := false

variable {M : Type}

namespace RunState

def start (config : SchedulerOffloadConfig) (settings : ConnectorSettings)
    (mambaAlignSize : Option Nat) (manager : M) (clock : StaleHitLadder.Clock) : RunState M where
  scheduler := OffloadingConnectorScheduler.new config settings mambaAlignSize manager clock

variable [OffloadingManager M] (state : RunState M)

def apply : ConnectorEvent → Except PyError (RunState M)
  | .newRequest req =>
      .ok { state with
        scheduler := state.scheduler.onNewRequest req
        known := insert req.requestId state.known }
  | .requestChanged req =>
      .ok { state with scheduler := state.scheduler.requestChanged req }
  | .getNumNewMatchedTokens reqId numComputedTokens => do
      let (_, scheduler) ← state.scheduler.getNumNewMatchedTokens reqId numComputedTokens
      .ok { state with scheduler := scheduler }
  | .updateStateAfterAlloc reqId blocks numExternalTokens => do
      let scheduler ← updateStateAfterAlloc state.scheduler reqId blocks numExternalTokens
      .ok { state with
        scheduler := scheduler
        stepping := state.stepping || decide (numExternalTokens ≠ 0) }
  | .buildConnectorMeta output => do
      let (_, scheduler) ← buildConnectorMeta state.scheduler output
      .ok { state with scheduler := scheduler, unsent := ∅, stepping := false }
  | .updateConnectorOutput completedJobs => do
      let scheduler ← updateConnectorOutput state.scheduler completedJobs
      .ok { state with
        scheduler := scheduler
        ledger := state.ledger.noteAll state.scheduler.config.numWorkers completedJobs }
  | .requestFinished req => do
      let scheduler ← requestFinished state.scheduler req
      .ok { state with scheduler := scheduler, known := insert req.requestId state.known }
  | .resetCache => do
      let scheduler ← resetCache state.scheduler
      .ok { state with
        scheduler := scheduler
        ledger := state.ledger.reset state.scheduler.jobCounter
        unsent := state.unsent ∪ state.scheduler.jobs.keys.toFinset }

omit [OffloadingManager M] in
/-- Request ids are unique, a request becomes finished by `request_finished`, only finished
requests are listed as such in a step, and workers report what they were given. -/
def Permitted : ConnectorEvent → Prop
  | .newRequest req => req.requestId ∉ state.known
  | .requestChanged req =>
      ∀ status ∈ state.scheduler.reqStatus.get? req.requestId,
        req.isFinished = status.req.isFinished
  | .buildConnectorMeta output =>
      ∀ reqId ∈ output.finishedReqIds, ∀ status ∈ state.scheduler.reqStatus.get? reqId,
        status.req.isFinished = true
  | .updateConnectorOutput completedJobs =>
      Reportable state.scheduler.config.numWorkers state.scheduler.jobCounter state.ledger
        completedJobs
  | .requestFinished req => req.isFinished = true
  | _ => True

omit [OffloadingManager M] in
/-- Only a lax system serves requests whose end was signaled. -/
def ServedOnly (lax : Prop) : ConnectorEvent → Prop
  | .getNumNewMatchedTokens reqId _ => Served lax (desk state.scheduler) [reqId]
  | .updateStateAfterAlloc reqId _ _ => Served lax (desk state.scheduler) [reqId]
  | .buildConnectorMeta output =>
      Served lax (desk state.scheduler) (output.partialTailOffloads.keys ++
        (output.numScheduledTokens.keys ++ output.finishedReqIds)) ∧
        (output.finishedReqIds.Nodup ∨ lax)
  | _ => True

end RunState

instance (state : RunState M) (event : ConnectorEvent) : Decidable (state.Permitted event) :=
  match event with
  | .newRequest _ => inferInstanceAs (Decidable (_ ∉ _))
  | .requestChanged _ => inferInstanceAs (Decidable (∀ status ∈ _, _ = _))
  | .getNumNewMatchedTokens _ _ => .isTrue trivial
  | .updateStateAfterAlloc _ _ _ => .isTrue trivial
  | .buildConnectorMeta _ => inferInstanceAs (Decidable (∀ reqId ∈ _, ∀ status ∈ _, _ = _))
  | .updateConnectorOutput _ => decidableReportable _ _ _ _
  | .requestFinished _ => inferInstanceAs (Decidable (_ = _))
  | .resetCache => .isTrue trivial

section Rule

variable [OffloadingManager M] {lax : Prop}

/-- Every tracked request has a known id. -/
def TrackedIn (known : Finset ReqId) (books : Desk M) : Prop :=
  ∀ reqId request, books.requests reqId = some request → reqId ∈ known

theorem moves_tracked_in {known : Finset ReqId} {before after : Desk M}
    (tracked : TrackedIn known before) (moves : Moves lax before after) :
    TrackedIn known after := by
  intro reqId request found
  obtain ⟨earlier, foundEarlier, _⟩ := moves_tracked moves found
  exact tracked reqId earlier foundEarlier

omit [OffloadingManager M] in
theorem replaced_tracked_in {known : Finset ReqId} {books : Desk M} {reqId : ReqId}
    {request : ReqBooks} (tracked : TrackedIn known books)
    (found : books.requests reqId = some request) (replaced : Option ReqBooks) :
    TrackedIn known (books.withRequest reqId replaced) := by
  intro other kept keptFound
  rw [with_request_requests] at keptFound
  split at keptFound
  · rename_i same
    exact same ▸ tracked reqId request found
  · exact tracked other kept keptFound

theorem admit_tracked_in {known : Finset ReqId} {before after : Desk M} {reqId : ReqId}
    (tracked : TrackedIn known before) (admits : Admit reqId before after) :
    TrackedIn (insert reqId known) after := by
  have wider : TrackedIn (insert reqId known) before := fun other request found =>
    Finset.mem_insert_of_mem (tracked other request found)
  cases admits with
  | opened _ _ =>
      intro other request found
      rw [with_request_requests] at found
      split at found
      · rename_i same
        exact Finset.mem_insert.mpr (.inl same)
      · exact wider other request found
  | passed _ _ => exact wider
  | finished found _ _ => exact replaced_tracked_in wider found _

theorem signals_tracked_in {known : Finset ReqId} {before after : Desk M}
    (tracked : TrackedIn known before) (signals : Signals lax before after) :
    TrackedIn known after := by
  induction signals with
  | refl => exact tracked
  | tail _ signal ih =>
      cases signal with
      | signaled found _ _ _ => exact replaced_tracked_in ih found _

theorem report_tracked_in {known : Finset ReqId} {before after : Desk M} {jobId : JobId}
    {count : Int} (tracked : TrackedIn known before) (report : Report jobId count before after) :
    TrackedIn known after := by
  cases report with
  | stale _ => exact tracked
  | partly _ _ _ => exact tracked
  | fully _ _ _ found _ _ _ => exact replaced_tracked_in tracked found _

theorem reset_tracked_in {known : Finset ReqId} {before after : Desk M}
    (tracked : TrackedIn known before) (reset : Reset before after) : TrackedIn known after := by
  cases reset with
  | reset _ _ _ _ =>
      intro reqId request found
      obtain ⟨earlier, foundEarlier, _⟩ := Option.bind_eq_some_iff.mp found
      exact tracked reqId earlier foundEarlier

theorem report_frame {before after : Desk M} {jobId : JobId} {count : Int}
    (report : Report jobId count before after) :
    after.numWorkers = before.numWorkers ∧ after.jobCounter = before.jobCounter := by
  cases report with
  | stale _ => exact ⟨rfl, rfl⟩
  | partly _ _ _ => exact ⟨rfl, rfl⟩
  | fully _ _ _ _ _ _ _ => exact ⟨rfl, rfl⟩

/-- What the moves, the signals, the requests that come and finish and the reports all keep,
and a reset where the event is one, holds after the event. -/
theorem event_rule {Inv : Ledger → Desk M → Prop} {before after : RunState M}
    {event : ConnectorEvent} (isPermitted : before.Permitted event)
    (served : before.ServedOnly lax event)
    (move : ∀ ledger before after, Inv ledger before → Move lax before after → Inv ledger after)
    (signal : ∀ ledger before after, Inv ledger before → Signal lax before after →
      Inv ledger after)
    (admits : ∀ ledger before after reqId, Inv ledger before → Admit reqId before after →
      Inv ledger after)
    (report : ∀ ledger before after jobId count, Inv ledger before → jobId < before.jobCounter →
      0 < count → ledger.reported jobId + count ≤ before.numWorkers →
      Report jobId count before after →
      Inv (ledger.note before.numWorkers (jobId, count)) after)
    (reset : event = .resetCache → ∀ ledger before after, Inv ledger before →
      Reset before after → Inv (ledger.reset before.jobCounter) after)
    (tracked : TrackedIn before.known (desk before.scheduler))
    (inv : Inv before.ledger (desk before.scheduler)) (applied : before.apply event = .ok after) :
    TrackedIn after.known (desk after.scheduler) ∧ Inv after.ledger (desk after.scheduler) := by
  have moves : ∀ ledger before after, Inv ledger before → Moves lax before after →
      Inv ledger after := by
    intro ledger before after inv steps
    induction steps with
    | refl => exact inv
    | tail _ step ih => exact move _ _ _ ih step
  have signals : ∀ ledger before after, Inv ledger before → Signals lax before after →
      Inv ledger after := by
    intro ledger before after inv steps
    induction steps with
    | refl => exact inv
    | tail _ step ih => exact signal _ _ _ ih step
  have reports : ∀ (known : Finset ReqId) (completedJobs : List (JobId × Int)) (ledger : Ledger)
      (scheduler after : OffloadingConnectorScheduler M), TrackedIn known (desk scheduler) →
      Inv ledger (desk scheduler) →
      Reportable (desk scheduler).numWorkers (desk scheduler).jobCounter ledger completedJobs →
      updateConnectorOutput scheduler completedJobs = .ok after →
      TrackedIn known (desk after) ∧
        Inv (ledger.noteAll (desk scheduler).numWorkers completedJobs) (desk after) := by
    intro known completedJobs
    induction completedJobs with
    | nil =>
        intro ledger scheduler after tracked inv _ done
        cases done
        exact ⟨tracked, inv⟩
    | cons entry rest ih =>
        intro ledger scheduler after tracked inv reportable done
        obtain ⟨middle, reported, done⟩ := bind_eq_ok.mp done
        obtain ⟨positive, step⟩ := report_job_report reported
        obtain ⟨workers, counter⟩ := report_frame step
        have later := reportable.2
        have next := report _ _ _ _ _ inv reportable.1.1 positive reportable.1.2.2 step
        rw [← workers, ← counter] at later
        rw [← workers] at next
        have result := ih _ _ _ (report_tracked_in tracked step) next later done
        rw [workers] at result
        exact result
  cases event with
  | newRequest req =>
      cases applied
      have fresh : before.scheduler.reqStatus.get? req.requestId = none := by
        by_contra present
        obtain ⟨status, found⟩ := Option.ne_none_iff_exists'.mp present
        exact isPermitted (tracked _ _ (tracked_of_status found))
      have step := on_new_request_admit before.scheduler req fresh
      exact ⟨admit_tracked_in tracked step, admits _ _ _ _ inv step⟩
  | requestChanged req =>
      cases applied
      have same := @request_changed_desk M before.scheduler req isPermitted
      exact ⟨same ▸ tracked, same ▸ inv⟩
  | getNumNewMatchedTokens reqId numComputedTokens =>
      obtain ⟨⟨answer, scheduler⟩, called, applied⟩ := bind_eq_ok.mp applied
      cases applied
      have steps := get_num_moves (fun status found =>
        served_status served (List.mem_singleton_self reqId) found) called
      exact ⟨moves_tracked_in tracked steps, moves _ _ _ inv steps⟩
  | updateStateAfterAlloc reqId blocks numExternalTokens =>
      obtain ⟨scheduler, called, applied⟩ := bind_eq_ok.mp applied
      cases applied
      have steps := update_state_after_alloc_moves (fun status found =>
        served_status served (List.mem_singleton_self reqId) found) called
      exact ⟨moves_tracked_in tracked steps, moves _ _ _ inv steps⟩
  | buildConnectorMeta output =>
      obtain ⟨⟨connectorMeta, scheduler⟩, called, applied⟩ := bind_eq_ok.mp applied
      cases applied
      have ended : Ended (desk before.scheduler) output.finishedReqIds := by
        intro reqId member request found
        obtain ⟨status, present, rfl⟩ := status_of_tracked found
        exact isPermitted reqId member status present
      obtain ⟨build, _, _, steps, ends⟩ :=
        build_connector_meta_moves served.1 ended served.2 called
      exact ⟨signals_tracked_in (moves_tracked_in tracked steps) ends,
        signals _ _ _ (moves _ _ _ inv steps) ends⟩
  | updateConnectorOutput completedJobs =>
      obtain ⟨scheduler, called, applied⟩ := bind_eq_ok.mp applied
      cases applied
      exact reports _ _ _ _ _ tracked inv isPermitted called
  | requestFinished req =>
      obtain ⟨scheduler, called, applied⟩ := bind_eq_ok.mp applied
      cases applied
      have step := request_finished_admitted isPermitted called
      exact ⟨admit_tracked_in tracked step, admits _ _ _ _ inv step⟩
  | resetCache =>
      obtain ⟨scheduler, called, applied⟩ := bind_eq_ok.mp applied
      cases applied
      have step := reset_cache_reset called
      exact ⟨reset_tracked_in tracked step, reset rfl _ _ _ inv step⟩

/-- What the moves, the signals, the requests that come and finish, the reports and the
resets all keep holds in every reachable state, where all tracked requests have known ids. -/
theorem run_rule_tracked {permitted : RunState M → ConnectorEvent → Prop}
    {Inv : Ledger → Desk M → Prop} {start state : RunState M}
    (allowed : ∀ state event, permitted state event →
      state.Permitted event ∧ state.ServedOnly lax event)
    (move : ∀ ledger before after, Inv ledger before → Move lax before after → Inv ledger after)
    (signal : ∀ ledger before after, Inv ledger before → Signal lax before after →
      Inv ledger after)
    (admits : ∀ ledger before after reqId, Inv ledger before → Admit reqId before after →
      Inv ledger after)
    (report : ∀ ledger before after jobId count, Inv ledger before → jobId < before.jobCounter →
      0 < count → ledger.reported jobId + count ≤ before.numWorkers →
      Report jobId count before after →
      Inv (ledger.note before.numWorkers (jobId, count)) after)
    (reset : ∀ ledger before after, Inv ledger before → Reset before after →
      Inv (ledger.reset before.jobCounter) after)
    (tracked : TrackedIn start.known (desk start.scheduler))
    (initial : Inv start.ledger (desk start.scheduler))
    (reaches : EventRuns.Reaches RunState.apply permitted start state) :
    TrackedIn state.known (desk state.scheduler) ∧ Inv state.ledger (desk state.scheduler) := by
  apply @EventRuns.reaches_invariant (RunState M) ConnectorEvent PyError RunState.apply
    permitted (fun state => TrackedIn state.known (desk state.scheduler) ∧
      Inv state.ledger (desk state.scheduler)) start state ?_ ⟨tracked, initial⟩ reaches
  rintro before event after ⟨tracked, inv⟩ isPermitted applied
  obtain ⟨isPermitted, served⟩ := allowed before event isPermitted
  exact event_rule isPermitted served move signal admits report (fun _ => reset) tracked inv
    applied

theorem run_rule {permitted : RunState M → ConnectorEvent → Prop}
    {Inv : Ledger → Desk M → Prop} {start state : RunState M}
    (allowed : ∀ state event, permitted state event →
      state.Permitted event ∧ state.ServedOnly lax event)
    (move : ∀ ledger before after, Inv ledger before → Move lax before after → Inv ledger after)
    (signal : ∀ ledger before after, Inv ledger before → Signal lax before after →
      Inv ledger after)
    (admits : ∀ ledger before after reqId, Inv ledger before → Admit reqId before after →
      Inv ledger after)
    (report : ∀ ledger before after jobId count, Inv ledger before → jobId < before.jobCounter →
      0 < count → ledger.reported jobId + count ≤ before.numWorkers →
      Report jobId count before after →
      Inv (ledger.note before.numWorkers (jobId, count)) after)
    (reset : ∀ ledger before after, Inv ledger before → Reset before after →
      Inv (ledger.reset before.jobCounter) after)
    (tracked : TrackedIn start.known (desk start.scheduler))
    (initial : Inv start.ledger (desk start.scheduler))
    (reaches : EventRuns.Reaches RunState.apply permitted start state) :
    Inv state.ledger (desk state.scheduler) :=
  (run_rule_tracked allowed move signal admits report reset tracked initial reaches).2

omit [OffloadingManager M] in
theorem served_only_lax (state : RunState M) (event : ConnectorEvent) :
    state.ServedOnly True event := by
  cases event with
  | getNumNewMatchedTokens _ _ => exact fun _ _ _ _ _ => trivial
  | updateStateAfterAlloc _ _ _ => exact fun _ _ _ _ _ => trivial
  | buildConnectorMeta _ => exact ⟨fun _ _ _ _ _ => trivial, .inr trivial⟩
  | _ => trivial

omit [OffloadingManager M] in
theorem start_books (config : SchedulerOffloadConfig) (settings : ConnectorSettings)
    (mambaAlignSize : Option Nat) (manager : M) (clock : StaleHitLadder.Clock) :
    JobInv (desk (RunState.start config settings mambaAlignSize manager clock).scheduler) ∧
      FenceInv (desk (RunState.start config settings mambaAlignSize manager clock).scheduler) := by
  refine ⟨⟨nofun, nofun, nofun, nofun, nofun, nofun, le_rfl⟩, SetMap.no_empty_empty, ?_⟩
  intro blockId jobId
  constructor
  · exact fun holds => absurd holds (SetMap.not_holds_empty blockId jobId)
  · rintro ⟨_, _, found, _⟩
    cases found

end Rule

end KvOffload.ConnectorRuns
