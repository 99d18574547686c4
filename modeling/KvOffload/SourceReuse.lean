import KvOffload.FlushIds
import KvOffload.TransferQueue
import KvOffload.WorkerRuns

/-!
# Source blocks that are handed out again

A store reads GPU blocks while the scheduler goes on. A block that left its request may be
given to other tokens by a later step. The workers run that step only after the jobs it
flushes, so no worker overwrites what a store of an earlier step has yet to copy.
-/

namespace KvOffload.SourceReuse

open KvOffload KvOffload.Base KvOffload.ConnectorConfig KvOffload.ConnectorRequests
open KvOffload.ManagerInterface KvOffload.ConnectorScheduler KvOffload.ConnectorStores
open KvOffload.JobBooks KvOffload.ConnectorMoves KvOffload.ConnectorBuilds
open KvOffload.JobInvariants KvOffload.ConnectorRuns KvOffload.FenceRuns KvOffload.JobLedger
open KvOffload.ResetRuns KvOffload.FlushIds
open KvOffload.WorkerRuns (jobIds note_all_reported_of_not_mem)
open KvOffload.TransferQueue (concat_entry)

set_option autoImplicit false

variable {M : Type}

/-- What the workers are told of a step, with the requests that it preempts and the blocks that it
gives to other tokens. -/
structure Step where
  connectorMeta : OffloadingConnectorMetadata
  preemptedReqIds : List ReqId
  given : Finset Nat

/-- The job was sent with one of the first steps. -/
def SentBy (steps : List Step) (index : Nat) (jobId : JobId) : Prop :=
  ∃ step ∈ steps.take (index + 1), jobId ∈ jobIds step.connectorMeta

instance (steps : List Step) (index : Nat) (jobId : JobId) : Decidable (SentBy steps index jobId) :=
  inferInstanceAs (Decidable (∃ step ∈ _, _ ∈ _))

/-- The request was preempted by a step after the one that made its store job. -/
def PreemptedSince (steps : List Step) (jobId : JobId) : Prop :=
  ∃ last < steps.length, ∃ index < last, ∃ step ∈ steps[index]?, ∃ later ∈ steps[last]?,
    ∃ transfer ∈ step.connectorMeta.storeJobs.get? jobId, transfer.reqId ∈ later.preemptedReqIds

instance (steps : List Step) (jobId : JobId) : Decidable (PreemptedSince steps jobId) :=
  inferInstanceAs (Decidable (∃ last < _, ∃ index < last, ∃ step ∈ _, ∃ later ∈ _, ∃ transfer ∈ _,
    _ ∈ _))

/-- The connector's run with the steps it has sent, how many of them each worker has run, and
the workers that are done with each job. -/
structure System (M : Type) where
  run : RunState (Logged M)
  steps : List Step := []
  stepped : Nat → Nat := fun _ => 0
  done : JobId → Finset Nat := fun _ => ∅

inductive SystemEvent where
  | connector (event : ConnectorEvent)
  | step (output : SchedulerOutput) (given : Finset Nat)
  | stepped (worker : Nat)
  | copied (worker : Nat) (jobId : JobId)

def NoStep : ConnectorEvent → Prop
  | .buildConnectorMeta _ => False
  | _ => True

instance (event : ConnectorEvent) : Decidable (NoStep event) :=
  match event with
  | .buildConnectorMeta _ => .isFalse id
  | .newRequest _ => .isTrue trivial
  | .requestChanged _ => .isTrue trivial
  | .getNumNewMatchedTokens _ _ => .isTrue trivial
  | .updateStateAfterAlloc _ _ _ => .isTrue trivial
  | .updateConnectorOutput _ => .isTrue trivial
  | .requestFinished _ => .isTrue trivial
  | .resetCache => .isTrue trivial

namespace System

variable (system : System M)

def numWorkers : Nat := system.run.scheduler.config.numWorkers

/-- The worker is done with the jobs that are flushed by the step, as far as they were sent. -/
def Flushed (worker index : Nat) : Prop :=
  ∀ step ∈ system.steps[index]?, ∀ jobId ∈ step.connectorMeta.jobsToFlush,
    SentBy system.steps index jobId → worker ∈ system.done jobId

/-- A request that was neither finished nor preempted since a store of it was made keeps the blocks
that the store reads outside windows. -/
def Owned (output : SchedulerOutput) (given : Finset Nat) : Prop :=
  ∀ entry ∈ system.run.scheduler.jobs.entries,
    ∀ status ∈ system.run.scheduler.reqStatus.get? entry.2.reqId,
      status.req.isFinished = false → entry.2.reqId ∉ output.preemptedReqIds →
        ¬ PreemptedSince system.steps entry.1 →
          ∀ blockId ∈ entry.2.deferredFenceBlockIds, blockId ∉ given

def start (config : SchedulerOffloadConfig) (settings : ConnectorSettings)
    (mambaAlignSize : Option Nat) (manager : M) (clock : StaleHitLadder.Clock) : System M where
  run := RunState.start config settings mambaAlignSize ⟨manager, {}⟩ clock

/-- A worker reports what it has finished. -/
def Finished : ConnectorEvent → Prop
  | .updateConnectorOutput reports => ∀ report ∈ reports,
      (system.run.ledger.noteAll system.numWorkers reports).reported report.1 ≤
        (system.done report.1).card
  | _ => True

/-- A step gives away only what is handed out, and a worker runs the steps in order, each after
the jobs it flushes. -/
def Permitted : SystemEvent → Prop
  | .connector event => NoStep event ∧ system.run.Permitted event ∧ system.Finished event
  | .step output given => system.run.Permitted (.buildConnectorMeta output) ∧
      given ⊆ handedOut system.run.scheduler output ∧ system.Owned output given
  | .stepped worker => worker < system.numWorkers ∧
      system.stepped worker < system.steps.length ∧
      system.Flushed worker (system.stepped worker)
  | .copied worker jobId => worker < system.numWorkers ∧
      ∃ step ∈ system.steps, jobId ∈ jobIds step.connectorMeta

end System

def System.apply [OffloadingManager M] (system : System M) : SystemEvent → Except PyError (System M)
  | .connector event => do
      let run ← system.run.apply event
      .ok { system with run := run }
  | .step output given => do
      let run ← system.run.apply (.buildConnectorMeta output)
      let (connectorMeta, _) ← buildConnectorMeta system.run.scheduler output
      .ok { system with run := run, steps := system.steps ++ [⟨connectorMeta, output.preemptedReqIds, given⟩] }
  | .stepped worker =>
      .ok { system with
        stepped := Function.update system.stepped worker (system.stepped worker + 1) }
  | .copied worker jobId =>
      .ok { system with
        done := Function.update system.done jobId (insert worker (system.done jobId)) }

instance (system : System M) (output : SchedulerOutput) (given : Finset Nat) :
    Decidable (system.Owned output given) :=
  inferInstanceAs (Decidable (∀ entry ∈ _, ∀ status ∈ _, _ = _ → _ ∉ _ → ¬ _ →
    ∀ blockId ∈ _, _ ∉ _))

instance (system : System M) (worker index : Nat) : Decidable (system.Flushed worker index) :=
  inferInstanceAs (Decidable (∀ step ∈ _, ∀ jobId ∈ _, _ → _ ∈ _))

instance (system : System M) (event : ConnectorEvent) : Decidable (system.Finished event) :=
  match event with
  | .updateConnectorOutput _ => inferInstanceAs (Decidable (∀ report ∈ _, _ ≤ _))
  | .newRequest _ => .isTrue trivial
  | .requestChanged _ => .isTrue trivial
  | .getNumNewMatchedTokens _ _ => .isTrue trivial
  | .updateStateAfterAlloc _ _ _ => .isTrue trivial
  | .buildConnectorMeta _ => .isTrue trivial
  | .requestFinished _ => .isTrue trivial
  | .resetCache => .isTrue trivial

instance (system : System M) (event : SystemEvent) : Decidable (system.Permitted event) :=
  match event with
  | .connector _ => inferInstanceAs (Decidable (_ ∧ _ ∧ _))
  | .step _ _ => inferInstanceAs (Decidable (_ ∧ (_ : Finset Nat) ⊆ _ ∧ _))
  | .stepped _ => inferInstanceAs (Decidable (_ < _ ∧ _ < _ ∧ _))
  | .copied _ _ => inferInstanceAs (Decidable (_ < _ ∧ ∃ step ∈ _, _ ∈ _))

/-- The jobs that were sent for these transfers are kept with their blocks while they are live. -/
structure Kept (numWorkers : Nat) (sent : JobId → TransferJob → Prop) (books : Desk M) : Prop where
  workers : books.numWorkers = numWorkers
  issued : ∀ jobId transfer, sent jobId transfer → jobId < books.jobCounter
  covers : ∀ jobId transfer, sent jobId transfer →
    ∀ job, books.jobs.get? jobId = some job → Covers job transfer

section Books

variable {numWorkers : Nat} {sent : JobId → TransferJob → Prop} {books after : Desk M} {lax : Prop}

theorem kept_enter (kept : Kept numWorkers sent books) {reqId : ReqId} {request : ReqBooks}
    (job : TransferJobStatus) (fenced : List Nat) :
    Kept numWorkers sent (books.enter reqId request job fenced) := by
  refine ⟨kept.workers, fun jobId transfer isSent =>
    (kept.issued jobId transfer isSent).trans (Nat.lt_succ_self _), ?_⟩
  intro jobId transfer isSent found isFound
  rw [get_enter_job, if_neg (Nat.ne_of_lt (kept.issued jobId transfer isSent))] at isFound
  exact kept.covers jobId transfer isSent found isFound

variable [OffloadingManager M]

theorem kept_move (kept : Kept numWorkers sent books) (move : Move lax books after) :
    Kept numWorkers sent after := by
  cases move with
  | looked _ _ _ => exact ⟨kept.workers, kept.issued, kept.covers⟩
  | touched _ => exact ⟨kept.workers, kept.issued, kept.covers⟩
  | loadIssued _ _ _ _ =>
      apply kept_enter
      exact ⟨kept.workers, kept.issued, kept.covers⟩
  | storeDeclined _ _ _ _ => exact ⟨kept.workers, kept.issued, kept.covers⟩
  | storeIssued _ _ _ _ =>
      apply kept_enter
      exact ⟨kept.workers, kept.issued, kept.covers⟩
  | scheduleEnded _ => exact ⟨kept.workers, kept.issued, kept.covers⟩
  | drained => exact ⟨kept.workers, kept.issued, kept.covers⟩

theorem kept_signal (kept : Kept numWorkers sent books) (signal : Signal lax books after) :
    Kept numWorkers sent after := by
  cases signal with
  | signaled _ _ _ _ => exact ⟨kept.workers, kept.issued, kept.covers⟩

theorem kept_admit (kept : Kept numWorkers sent books) {reqId : ReqId}
    (admits : Admit reqId books after) : Kept numWorkers sent after := by
  cases admits with
  | opened _ _ => exact ⟨kept.workers, kept.issued, kept.covers⟩
  | passed _ _ => exact ⟨kept.workers, kept.issued, kept.covers⟩
  | finished _ _ _ => exact ⟨kept.workers, kept.issued, kept.covers⟩

theorem kept_report (kept : Kept numWorkers sent books) {reported : JobId} {count : Int}
    (report : Report reported count books after) : Kept numWorkers sent after := by
  cases report with
  | stale _ => exact kept
  | @partly job _ found _ =>
      refine ⟨kept.workers, kept.issued, fun jobId transfer isSent later isLater => ?_⟩
      have isLater := (OrderedMap.get_set ..).symm.trans isLater
      split at isLater
      · rename_i same
        cases isLater
        obtain ⟨isStore, own, lists⟩ := kept.covers reported transfer (same ▸ isSent) job found
        exact ⟨isStore, own, lists⟩
      · exact kept.covers jobId transfer isSent later isLater
  | fully _ _ _ _ _ _ _ =>
      refine ⟨kept.workers, kept.issued, fun jobId transfer isSent later isLater => ?_⟩
      exact kept.covers jobId transfer isSent later (get_dropped isLater).2

theorem kept_reset (kept : Kept numWorkers sent books) (reset : Reset books after) :
    Kept numWorkers sent after := by
  cases reset with
  | reset _ _ _ _ =>
      refine ⟨kept.workers, kept.issued, fun _ _ _ _ found => ?_⟩
      cases found

end Books

/-- All workers are done with the job. -/
def Everywhere (system : System M) (jobId : JobId) : Prop :=
  ∀ worker < system.numWorkers, worker ∈ system.done jobId

/-- A step until then flushes the job after it was sent. -/
def FlushedBy (steps : List Step) (last : Nat) (jobId : JobId) : Prop :=
  ∃ index step, index ≤ last ∧ steps[index]? = some step ∧
    jobId ∈ step.connectorMeta.jobsToFlush ∧ SentBy steps index jobId

/-- The step sends the store. -/
def Sends (step : Step) (jobId : JobId) (transfer : TransferJob) : Prop :=
  step.connectorMeta.storeJobs.get? jobId = some transfer

/-- The step preempts the request of the store or gives a block away that the store reads. -/
def Disturbs (step : Step) (transfer : TransferJob) : Prop :=
  transfer.reqId ∈ step.preemptedReqIds ∨ ∃ blockId ∈ transfer.gpuSpec.blockIds, blockId ∈ step.given

/-- The connector's own run is one of its runs. -/
def Reached [OffloadingManager M] (run : RunState (Logged M)) : Prop :=
  ∃ (config : SchedulerOffloadConfig) (settings : ConnectorSettings)
    (mambaAlignSize : Option Nat) (manager : M) (clock : StaleHitLadder.Clock),
    EventRuns.Reaches RunState.apply RunState.Permitted
      (RunState.start config settings mambaAlignSize (⟨manager, {}⟩ : Logged M) clock) run

/-- What is known of each step: its stores are numbered and kept with their blocks; those from
before a reset are flushed or done, and so is each that a later step disturbs. -/
structure SourceInv [OffloadingManager M] (system : System M) : Prop where
  reached : Reached system.run
  tracked : TrackedIn system.run.known (desk system.run.scheduler)
  reported : ∀ jobId, system.run.ledger.reported jobId ≤ (system.done jobId).card
  inside : ∀ jobId, system.done jobId ⊆ Finset.range system.numWorkers
  kept : Kept system.numWorkers (fun jobId transfer => ∃ step ∈ system.steps,
    Sends step jobId transfer) (desk system.run.scheduler)
  stale : ∀ (step : Step) jobId transfer, step ∈ system.steps → Sends step jobId transfer →
    jobId < system.run.ledger.resetAt → Everywhere system jobId ∨ jobId ∈ system.run.unsent ∨
      FlushedBy system.steps system.steps.length jobId
  safe : ∀ (index last : Nat) (step later : Step) jobId transfer, system.steps[index]? = some step →
    Sends step jobId transfer → index < last → system.steps[last]? = some later →
      Disturbs later transfer → Everywhere system jobId ∨ FlushedBy system.steps last jobId
  ran : ∀ worker index, index < system.stepped worker → index < system.steps.length ∧
    system.Flushed worker index

section Runs

variable [OffloadingManager M] {system after : System M}

theorem note_all_reset_at (numWorkers : Nat) (reports : List (JobId × Int)) (ledger : Ledger) :
    (ledger.noteAll numWorkers reports).resetAt = ledger.resetAt := by
  induction reports generalizing ledger with
  | nil => rfl
  | cons report rest ih => exact ih (ledger.note numWorkers report)

/-- Only a reset moves the line between the jobs of two periods, and only it and a step change
what is to be flushed. -/
theorem event_ledger {run : RunState (Logged M)} {event : ConnectorEvent}
    (noStep : NoStep event) (keeps : event ≠ .resetCache)
    (applied : system.run.apply event = .ok run) :
    run.ledger.resetAt = system.run.ledger.resetAt ∧ run.unsent = system.run.unsent := by
  cases event with
  | buildConnectorMeta output => exact absurd noStep id
  | resetCache => exact absurd rfl keeps
  | updateConnectorOutput reports =>
      obtain ⟨_, _, same⟩ := bind_eq_ok.mp applied
      cases same
      exact ⟨note_all_reset_at _ _ _, rfl⟩
  | newRequest _ =>
      cases applied
      exact ⟨rfl, rfl⟩
  | requestChanged _ =>
      cases applied
      exact ⟨rfl, rfl⟩
  | getNumNewMatchedTokens _ _ =>
      obtain ⟨_, _, same⟩ := bind_eq_ok.mp applied
      cases same
      exact ⟨rfl, rfl⟩
  | updateStateAfterAlloc _ _ _ =>
      obtain ⟨_, _, same⟩ := bind_eq_ok.mp applied
      cases same
      exact ⟨rfl, rfl⟩
  | requestFinished _ =>
      obtain ⟨_, _, same⟩ := bind_eq_ok.mp applied
      cases same
      exact ⟨rfl, rfl⟩

/-- Reports are only of what the workers have done. -/
theorem event_reported {run : RunState (Logged M)} {event : ConnectorEvent}
    (inv : SourceInv system) (finished : system.Finished event)
    (applied : system.run.apply event = .ok run) (jobId : JobId) :
    run.ledger.reported jobId ≤ (system.done jobId).card := by
  cases event with
  | updateConnectorOutput reports =>
      obtain ⟨_, _, same⟩ := bind_eq_ok.mp applied
      cases same
      show (system.run.ledger.noteAll _ reports).reported jobId ≤ _
      by_cases told : jobId ∈ reports.map Prod.fst
      · obtain ⟨report, member, rfl⟩ := List.mem_map.mp told
        exact finished report member
      · rw [note_all_reported_of_not_mem reports told]
        exact inv.reported jobId
  | buildConnectorMeta _ =>
      obtain ⟨_, _, same⟩ := bind_eq_ok.mp applied
      cases same
      exact inv.reported jobId
  | resetCache =>
      obtain ⟨_, _, same⟩ := bind_eq_ok.mp applied
      cases same
      exact inv.reported jobId
  | newRequest _ =>
      cases applied
      exact inv.reported jobId
  | requestChanged _ =>
      cases applied
      exact inv.reported jobId
  | getNumNewMatchedTokens _ _ =>
      obtain ⟨_, _, same⟩ := bind_eq_ok.mp applied
      cases same
      exact inv.reported jobId
  | updateStateAfterAlloc _ _ _ =>
      obtain ⟨_, _, same⟩ := bind_eq_ok.mp applied
      cases same
      exact inv.reported jobId
  | requestFinished _ =>
      obtain ⟨_, _, same⟩ := bind_eq_ok.mp applied
      cases same
      exact inv.reported jobId

theorem event_kept {run : RunState (Logged M)} {event : ConnectorEvent}
    {numWorkers : Nat} {sent : JobId → TransferJob → Prop}
    (tracked : TrackedIn system.run.known (desk system.run.scheduler))
    (permitted : system.run.Permitted event)
    (kept : Kept numWorkers sent (desk system.run.scheduler))
    (applied : system.run.apply event = .ok run) :
    TrackedIn run.known (desk run.scheduler) ∧ Kept numWorkers sent (desk run.scheduler) := by
  refine @event_rule (Logged M) _ True (fun _ books => Kept numWorkers sent books) _ run event
    permitted (served_only_lax system.run event) ?_ ?_ ?_ ?_ ?_ tracked kept applied
  · exact fun _ _ _ kept move => kept_move kept move
  · exact fun _ _ _ kept signal => kept_signal kept signal
  · exact fun _ _ _ _ kept admits => kept_admit kept admits
  · exact fun _ _ _ _ _ kept _ _ _ report => kept_report kept report
  · exact fun _ _ _ _ kept reset => kept_reset kept reset

theorem reached_next {run next : RunState (Logged M)} {event : ConnectorEvent}
    (reached : Reached run) (permitted : run.Permitted event) (applied : run.apply event = .ok next) :
    Reached next := by
  obtain ⟨config, settings, mambaAlignSize, manager, clock, reaches⟩ := reached
  exact ⟨config, settings, mambaAlignSize, manager, clock, reaches.tail ⟨event, permitted, applied⟩⟩

theorem reached_books {run : RunState (Logged M)} (reached : Reached run) :
    BookInv run.ledger (desk run.scheduler) ∧ FencesExact run.scheduler ∧ BatchInv run := by
  obtain ⟨config, settings, mambaAlignSize, manager, clock, reaches⟩ := reached
  exact ⟨reached_book_inv reaches, (fences_exact reaches).1, reached_batch_inv reaches⟩

/-- A job of this period that is not live has been reported by all workers. -/
theorem gone_everywhere (inv : SourceInv system) {jobId : JobId}
    (live : system.run.ledger.resetAt ≤ jobId)
    (issued : jobId < system.run.scheduler.jobCounter)
    (gone : system.run.scheduler.jobs.get? jobId = none) : Everywhere system jobId := by
  have ledger := (reached_books inv.reached).1.ledger
  have settled := ledger.gone jobId (ledger.reset_at.le.trans live) issued gone
  have told : system.run.ledger.reported jobId = system.numWorkers :=
    (ledger.settled_done jobId settled).1
  have enough : system.numWorkers ≤ (system.done jobId).card := by
    have reported := inv.reported jobId
    rw [told] at reported
    exact_mod_cast reported
  have all : system.done jobId = Finset.range system.numWorkers :=
    Finset.eq_of_subset_of_card_le (inv.inside jobId) (by rwa [Finset.card_range])
  intro worker below
  rw [all]
  exact Finset.mem_range.mpr below

/-- Whatever a later step does to a store of an earlier one, the store is done, live or flushed. -/
theorem job_fate (inv : SourceInv system) {step : Step} {jobId : JobId} {transfer : TransferJob}
    (found : step ∈ system.steps) (sends : Sends step jobId transfer) :
    Everywhere system jobId ∨ jobId ∈ system.run.unsent ∨
      FlushedBy system.steps system.steps.length jobId ∨
      ∃ job, system.run.scheduler.jobs.get? jobId = some job ∧ Covers job transfer := by
  have sent : ∃ step ∈ system.steps, Sends step jobId transfer := ⟨step, found, sends⟩
  by_cases old : jobId < system.run.ledger.resetAt
  · rcases inv.stale step jobId transfer found sends old with all | unsent | flushed
    · exact .inl all
    · exact .inr (.inl unsent)
    · exact .inr (.inr (.inl flushed))
  · cases live : system.run.scheduler.jobs.get? jobId with
    | none =>
        exact .inl (gone_everywhere inv (Nat.not_lt.mp old) (inv.kept.issued jobId transfer sent)
          live)
    | some job => exact .inr (.inr (.inr ⟨job, rfl, inv.kept.covers jobId transfer sent job live⟩))

omit [OffloadingManager M] in
theorem everywhere_of_more {jobId : JobId} (workers : after.numWorkers = system.numWorkers)
    (more : system.done jobId ⊆ after.done jobId) (all : Everywhere system jobId) :
    Everywhere after jobId := by
  intro worker below
  rw [workers] at below
  exact more (all worker below)

/-- Any call of the connector but a step: what was live at a reset is to be flushed. -/
theorem connector_inv {event : ConnectorEvent} (inv : SourceInv system)
    (permitted : system.Permitted (.connector event))
    (applied : system.apply (.connector event) = .ok after) : SourceInv after := by
  obtain ⟨noStep, permitted, finished⟩ := permitted
  obtain ⟨run, ran, same⟩ := bind_eq_ok.mp applied
  cases same
  obtain ⟨tracked, kept⟩ := event_kept inv.tracked permitted inv.kept ran
  have workers : ({ system with run := run } : System M).numWorkers = system.numWorkers :=
    kept.workers
  have everywhere : ∀ jobId, Everywhere system jobId →
      Everywhere { system with run := run } jobId :=
    fun jobId => everywhere_of_more workers (Finset.Subset.refl _)
  have reported := event_reported inv finished ran
  refine ⟨reached_next inv.reached permitted ran, tracked, reported, ?_, ?_, ?_, ?_, inv.ran⟩
  · intro jobId
    rw [workers]
    exact inv.inside jobId
  · rw [workers]
    exact kept
  · intro step jobId transfer found sends old
    by_cases isReset : event = .resetCache
    · subst isReset
      obtain ⟨scheduler, called, same⟩ := bind_eq_ok.mp ran
      cases same
      rcases job_fate inv found sends with all | unsent | flushed | ⟨job, live, _⟩
      · exact .inl (everywhere jobId all)
      · exact .inr (.inl (Finset.mem_union_left _ unsent))
      · exact .inr (.inr flushed)
      · refine .inr (.inl (Finset.mem_union_right _ (List.mem_toFinset.mpr ?_)))
        exact (OrderedMap.mem_keys_iff _ _).mpr (Option.isSome_iff_exists.mpr ⟨job, live⟩)
    · obtain ⟨resetAt, unsent⟩ := event_ledger noStep isReset ran
      have old : jobId < run.ledger.resetAt := old
      rw [resetAt] at old
      show _ ∨ jobId ∈ run.unsent ∨ _
      rw [unsent]
      exact (inv.stale step jobId transfer found sends old).imp_left (everywhere jobId)
  · intro index last step later jobId transfer found sends before isLater disturbs
    exact (inv.safe index last step later jobId transfer found sends before isLater
      disturbs).imp_left (everywhere jobId)

omit [OffloadingManager M] in
/-- The worker has run what it ran before, and is done with what it was done with. -/
theorem ran_grows (ran : ∀ worker index, index < system.stepped worker →
      index < system.steps.length ∧ system.Flushed worker index)
    (steps : ∃ rest, after.steps = system.steps ++ rest)
    (done : ∀ jobId, system.done jobId ⊆ after.done jobId) {worker index : Nat}
    (before : index < system.stepped worker) :
    index < after.steps.length ∧ after.Flushed worker index := by
  obtain ⟨rest, grown⟩ := steps
  obtain ⟨within, flushed⟩ := ran worker index before
  refine ⟨?_, fun step found jobId member sent => done jobId (flushed step ?_ jobId member ?_)⟩
  · rw [grown, List.length_append]
    exact within.trans_le (Nat.le_add_right _ _)
  · rw [grown, List.getElem?_append_left within] at found
    exact found
  · unfold SentBy at sent
    rw [grown, List.take_append_of_le_length within] at sent
    exact sent

theorem copied_inv {worker : Nat} {jobId : JobId} (inv : SourceInv system)
    (permitted : system.Permitted (.copied worker jobId))
    (applied : system.apply (.copied worker jobId) = .ok after) : SourceInv after := by
  cases applied
  have more : ∀ other, system.done other ⊆
      Function.update system.done jobId (insert worker (system.done jobId)) other := by
    intro other
    by_cases same : other = jobId
    · subst same
      rw [Function.update_self]
      exact Finset.subset_insert _ _
    · rw [Function.update_of_ne same]
  have everywhere : ∀ other, Everywhere system other → Everywhere { system with
      done := Function.update system.done jobId (insert worker (system.done jobId)) } other :=
    fun other => everywhere_of_more rfl (more other)
  refine ⟨inv.reached, inv.tracked, fun other => ?_, fun other => ?_, inv.kept, ?_, ?_, ?_⟩
  · exact (inv.reported other).trans (by exact_mod_cast Finset.card_le_card (more other))
  · show Function.update system.done jobId _ other ⊆ _
    by_cases same : other = jobId
    · rw [same, Function.update_self]
      exact Finset.insert_subset (Finset.mem_range.mpr permitted.1) (inv.inside jobId)
    · rw [Function.update_of_ne same]
      exact inv.inside other
  · intro step other transfer found sends old
    exact (inv.stale step other transfer found sends old).imp_left (everywhere other)
  · intro index last step later other transfer found sends before isLater disturbs
    exact (inv.safe index last step later other transfer found sends before isLater
      disturbs).imp_left (everywhere other)
  · intro other index before
    exact @ran_grows M system { system with
      done := Function.update system.done jobId (insert worker (system.done jobId)) } inv.ran
      ⟨[], (List.append_nil _).symm⟩ more other index before

theorem stepped_inv {worker : Nat} (inv : SourceInv system)
    (permitted : system.Permitted (.stepped worker))
    (applied : system.apply (.stepped worker) = .ok after) : SourceInv after := by
  cases applied
  obtain ⟨_, within, flushed⟩ := permitted
  refine ⟨inv.reached, inv.tracked, inv.reported, inv.inside, inv.kept, inv.stale, inv.safe, ?_⟩
  intro other index before
  have before : index < Function.update system.stepped worker (system.stepped worker + 1) other :=
    before
  by_cases same : other = worker
  · subst same
    rw [Function.update_self] at before
    rcases Nat.lt_succ_iff_lt_or_eq.mp before with earlier | rfl
    · exact inv.ran other index earlier
    · exact ⟨within, flushed⟩
  · rw [Function.update_of_ne same] at before
    exact inv.ran other index before

omit [OffloadingManager M] in
theorem sent_by_append {steps : List Step} {index : Nat} {jobId : JobId}
    (sent : SentBy steps index jobId) (rest : List Step) : SentBy (steps ++ rest) index jobId := by
  obtain ⟨step, member, isSent⟩ := sent
  refine ⟨step, ?_, isSent⟩
  rw [List.take_append]
  exact List.mem_append_left _ member

omit [OffloadingManager M] in
/-- A flush of an earlier step is still there after more steps. -/
theorem flushed_by_append {steps : List Step} {last : Nat} {jobId : JobId}
    (flushed : FlushedBy steps last jobId) (rest : List Step) {later : Nat}
    (more : last ≤ later) : FlushedBy (steps ++ rest) later jobId := by
  obtain ⟨index, step, before, found, member, sent⟩ := flushed
  refine ⟨index, step, before.trans more, ?_, member, sent_by_append sent rest⟩
  obtain ⟨within, _⟩ := List.getElem?_eq_some_iff.mp found
  rw [List.getElem?_append_left within]
  exact found

omit [OffloadingManager M] in
theorem flushed_by_mono {steps : List Step} {last : Nat} {jobId : JobId}
    (flushed : FlushedBy steps last jobId) {later : Nat} (more : last ≤ later) :
    FlushedBy steps later jobId := by
  obtain ⟨index, step, before, facts⟩ := flushed
  exact ⟨index, step, before.trans more, facts⟩

/-- A live store of an earlier step that this step disturbs is flushed by this step, or its request
was preempted before. -/
theorem live_flushed (inv : SourceInv system) {output : SchedulerOutput} {given : Finset Nat}
    (inside : given ⊆ handedOut system.run.scheduler output)
    (owned : system.Owned output given) {jobId : JobId} {job : TransferJobStatus}
    {transfer : TransferJob} (found : system.run.scheduler.jobs.get? jobId = some job)
    (covers : Covers job transfer) {connectorMeta : OffloadingConnectorMetadata}
    (disturbs : Disturbs ⟨connectorMeta, output.preemptedReqIds, given⟩ transfer) :
    OfPreempted system.run.scheduler output jobId ∨
      ReadsReused system.run.scheduler output jobId ∨ PreemptedSince system.steps jobId := by
  obtain ⟨request, tracked, listed⟩ := (reached_books inv.reached).1.jobs.owned jobId job found
  obtain ⟨status, isStatus, rfl⟩ := status_of_tracked tracked
  obtain ⟨isStore, own, lists⟩ := covers
  rcases disturbs with preempted | ⟨blockId, member, isGiven⟩
  · exact .inl ⟨job.reqId, own ▸ preempted, status, isStatus, listed⟩
  · have reuses : (blockId ∈ job.fencedBlockIds ∨
        blockId ∈ job.deferredFenceBlockIds ∧ status.req.isFinished = true) →
        ReadsReused system.run.scheduler output jobId := fun reads =>
      ⟨job, status, found, isStore, isStatus, blockId, inside isGiven, reads⟩
    rcases (fence_lists_blocks lists blockId).mp member with fenced | deferred
    · exact .inr (.inl (reuses (.inl fenced)))
    · by_cases finished : status.req.isFinished = true
      · exact .inr (.inl (reuses (.inr ⟨deferred, finished⟩)))
      · by_cases preempted : job.reqId ∈ output.preemptedReqIds
        · exact .inl ⟨job.reqId, preempted, status, isStatus, listed⟩
        · by_cases since : PreemptedSince system.steps jobId
          · exact .inr (.inr since)
          · have entry := (OrderedMap.get_eq_some_iff _ _ _).mp found
            have active : status.req.isFinished = false := by simpa using finished
            exact absurd isGiven
              (owned _ entry status isStatus active preempted since blockId deferred)

/-- A store whose request was preempted since is done or flushed. -/
theorem preempted_since_flushed (inv : SourceInv system) {jobId : JobId}
    (since : PreemptedSince system.steps jobId) :
    Everywhere system jobId ∨ FlushedBy system.steps system.steps.length jobId := by
  obtain ⟨last, within, index, before, step, found, later, isLater, transfer, sends, preempted⟩ :=
    since
  exact (inv.safe index last step later jobId transfer found sends before isLater
    (.inl preempted)).imp_right fun flushed => flushed_by_mono flushed within.le

theorem step_inv {output : SchedulerOutput} {given : Finset Nat} (inv : SourceInv system)
    (permitted : system.Permitted (.step output given))
    (applied : system.apply (.step output given) = .ok after) : SourceInv after := by
  obtain ⟨permitted, inside, owned⟩ := permitted
  obtain ⟨run, ran, applied⟩ := bind_eq_ok.mp applied
  obtain ⟨⟨connectorMeta, scheduler⟩, built, same⟩ := bind_eq_ok.mp applied
  cases same
  obtain ⟨⟨sameMeta, sameScheduler⟩, again, same⟩ := bind_eq_ok.mp ran
  cases built.symm.trans again
  have resetAt : run.ledger.resetAt = system.run.ledger.resetAt := by
    cases same
    rfl
  have reported : run.ledger.reported = system.run.ledger.reported := by
    cases same
    rfl
  have unsent : run.unsent = ∅ := by
    cases same
    rfl
  have isScheduler : run.scheduler = scheduler := by
    cases same
    rfl
  obtain ⟨tracked, kept⟩ := event_kept inv.tracked permitted inv.kept ran
  have reached := reached_next inv.reached permitted ran
  obtain ⟨book, _, batched⟩ := reached_books inv.reached
  obtain ⟨_, _, _, _, _, reaches⟩ := id inv.reached
  obtain ⟨_, _, exactly⟩ := flush_ids_exact reaches built
  have newStores : ∀ jobId transfer, connectorMeta.storeJobs.get? jobId = some transfer →
      system.run.scheduler.jobCounter ≤ jobId ∧ ∃ job,
        run.scheduler.jobs.get? jobId = some job ∧ Covers job transfer := by
    rw [isScheduler]
    exact fun jobId transfer sent => sent_stores_covered book.jobs.below built sent
  have flushes : ∀ jobId, jobId ∈ system.run.unsent → jobId ∈ connectorMeta.jobsToFlush :=
    fun jobId waits => (exactly jobId).mpr (.inl waits)
  generalize isNow : (⟨connectorMeta, output.preemptedReqIds, given⟩ : Step) = now at *
  have sentBy : ∀ {step jobId transfer}, step ∈ system.steps → Sends step jobId transfer →
      SentBy (system.steps ++ [now]) system.steps.length jobId := by
    intro step jobId transfer member sends
    refine ⟨step, ?_, ?_⟩
    · rw [List.take_of_length_le (by simp)]
      exact List.mem_append_left _ member
    · refine Finset.mem_union_right _ (List.mem_toFinset.mpr ?_)
      exact (OrderedMap.mem_keys_iff _ _).mpr (Option.isSome_iff_exists.mpr ⟨transfer, sends⟩)
  have nowFlushed : ∀ {step jobId transfer}, step ∈ system.steps → Sends step jobId transfer →
      jobId ∈ connectorMeta.jobsToFlush →
      FlushedBy (system.steps ++ [now]) system.steps.length jobId := by
    intro step jobId transfer member sends flushed
    exact ⟨system.steps.length, now, le_rfl, List.getElem?_concat_length, isNow ▸ flushed,
      sentBy member sends⟩
  have workers : run.scheduler.config.numWorkers = system.numWorkers := kept.workers
  have everywhere : ∀ jobId, Everywhere system jobId → Everywhere { system with
      run := run, steps := system.steps ++ [now] } jobId :=
    fun jobId => everywhere_of_more workers (Finset.Subset.refl _)
  refine ⟨reached, tracked, ?_, ?_, ⟨rfl, ?_, ?_⟩, ?_, ?_, ?_⟩
  · intro jobId
    show run.ledger.reported jobId ≤ _
    rw [reported]
    exact inv.reported jobId
  · intro jobId
    show system.done jobId ⊆ Finset.range run.scheduler.config.numWorkers
    rw [workers]
    exact inv.inside jobId
  · rintro jobId transfer ⟨step, member, sends⟩
    rcases List.mem_append.mp member with old | new
    · exact kept.issued jobId transfer ⟨step, old, sends⟩
    · rw [List.mem_singleton.mp new, ← isNow] at sends
      obtain ⟨_, job, found, _⟩ := newStores jobId transfer sends
      exact (reached_books reached).1.jobs.below jobId job found
  · rintro jobId transfer ⟨step, member, sends⟩ job found
    rcases List.mem_append.mp member with old | new
    · exact kept.covers jobId transfer ⟨step, old, sends⟩ job found
    · rw [List.mem_singleton.mp new, ← isNow] at sends
      obtain ⟨_, other, isOther, covers⟩ := newStores jobId transfer sends
      cases found.symm.trans isOther
      exact covers
  · intro step jobId transfer member sends old
    have old : jobId < run.ledger.resetAt := old
    rw [resetAt] at old
    have longer : system.steps.length ≤ (system.steps ++ [now]).length := by simp
    rcases List.mem_append.mp member with earlier | new
    · rcases inv.stale step jobId transfer earlier sends old with all | waits | flushed
      · exact .inl (everywhere jobId all)
      · exact .inr (.inr (flushed_by_mono (nowFlushed earlier sends (flushes jobId waits)) longer))
      · exact .inr (.inr (flushed_by_append flushed _ longer))
    · rw [List.mem_singleton.mp new, ← isNow] at sends
      have late := (newStores jobId transfer sends).1
      have bounded := book.jobs.bounded
      have start := book.ledger.reset_at
      exact absurd (old.trans_le (start.symm.le.trans (bounded.trans late))) (lt_irrefl _)
  · intro index last step later jobId transfer found sends before isLater disturbs
    rcases concat_entry isLater with earlier | ⟨isLast, rfl⟩
    · obtain ⟨within, _⟩ := List.getElem?_eq_some_iff.mp earlier
      have isStep : system.steps[index]? = some step := by
        have found : (system.steps ++ [_])[index]? = some step := found
        rwa [List.getElem?_append_left (before.trans within)] at found
      rcases inv.safe index last step later jobId transfer isStep sends before earlier disturbs with
        all | flushed
      · exact .inl (everywhere jobId all)
      · exact .inr (flushed_by_append flushed _ le_rfl)
    · subst isLast
      have isStep : system.steps[index]? = some step := by
        have found : (system.steps ++ [_])[index]? = some step := found
        rwa [List.getElem?_append_left before] at found
      have member := List.mem_of_getElem? isStep
      rcases job_fate inv member sends with all | waits | flushed | ⟨job, live, covers⟩
      · exact .inl (everywhere jobId all)
      · exact .inr (nowFlushed member sends (flushes jobId waits))
      · exact .inr (flushed_by_append flushed _ le_rfl)
      · rw [← isNow] at disturbs
        rcases live_flushed inv inside owned live covers disturbs with preempted | reused | since
        · exact .inr (nowFlushed member sends ((exactly jobId).mpr (.inr (.inl preempted))))
        · exact .inr (nowFlushed member sends ((exactly jobId).mpr (.inr (.inr (.inl reused)))))
        · rcases preempted_since_flushed inv since with all | flushed
          · exact .inl (everywhere jobId all)
          · exact .inr (flushed_by_append flushed _ le_rfl)
  · intro worker index before
    exact @ran_grows M system { system with
      run := run, steps := system.steps ++ [now] } inv.ran
      ⟨_, rfl⟩ (fun _ => Finset.Subset.refl _) worker index before

theorem apply_inv {event : SystemEvent} (inv : SourceInv system)
    (permitted : system.Permitted event) (applied : system.apply event = .ok after) :
    SourceInv after := by
  cases event with
  | connector event => exact connector_inv inv permitted applied
  | step output given => exact step_inv inv permitted applied
  | stepped worker => exact stepped_inv inv permitted applied
  | copied worker jobId => exact copied_inv inv permitted applied

theorem start_inv (config : SchedulerOffloadConfig) (settings : ConnectorSettings)
    (mambaAlignSize : Option Nat) (manager : M) (clock : StaleHitLadder.Clock) :
    SourceInv (System.start config settings mambaAlignSize manager clock) := by
  refine ⟨⟨config, settings, mambaAlignSize, manager, clock, .refl⟩, ?_, fun _ => le_rfl,
    fun _ => Finset.empty_subset _, ⟨rfl, ?_, ?_⟩, ?_, ?_, ?_⟩
  · exact fun reqId request found => by cases found
  · rintro jobId transfer ⟨step, member, _⟩
    cases member
  · rintro jobId transfer ⟨step, member, _⟩
    cases member
  · intro step jobId transfer found
    cases found
  · intro index last step later jobId transfer found
    cases found
  · exact fun worker index before => absurd before (Nat.not_lt_zero _)

end Runs

/-- When a worker has run a step that gives a block away, it is done with every store of an
earlier step that reads the block. -/
def SourcesKept (system : System M) : Prop :=
  ∀ (worker index last : Nat) (step later : Step) (jobId : JobId) (transfer : TransferJob),
    worker < system.numWorkers → system.steps[index]? = some step → Sends step jobId transfer →
    index < last → last < system.stepped worker → system.steps[last]? = some later →
    (∃ blockId ∈ transfer.gpuSpec.blockIds, blockId ∈ later.given) → worker ∈ system.done jobId

variable [OffloadingManager M]

/-- In every run no worker gives a source block away that a store has yet to copy. -/
theorem sources_kept {config : SchedulerOffloadConfig} {settings : ConnectorSettings}
    {mambaAlignSize : Option Nat} {manager : M} {clock : StaleHitLadder.Clock}
    {system : System M} (reaches : EventRuns.Reaches System.apply System.Permitted
      (System.start config settings mambaAlignSize manager clock) system) :
    SourcesKept system := by
  have inv : SourceInv system := EventRuns.reaches_invariant
    (fun _ _ _ inv => apply_inv inv) (start_inv config settings mambaAlignSize manager clock)
    reaches
  intro worker index last step later jobId transfer inside found sends before ran isLater given
  rcases inv.safe index last step later jobId transfer found sends before isLater (.inr given) with
    all | ⟨place, flusher, upTo, isFlusher, flushed, sent⟩
  · exact all worker inside
  · obtain ⟨_, waited⟩ := inv.ran worker place (upTo.trans_lt ran)
    exact waited flusher isFlusher jobId flushed sent

/-- A step that computes two tokens into a block, as one worker runs it. -/
def slideRun (numComputedTokens blockId : Nat) : List SystemEvent :=
  [.connector (.requestChanged (slideRequest numComputedTokens)),
    .step
      { reqData := [⟨0, [[blockId]], false⟩]
        numScheduledTokens := OrderedMap.empty.set 0 2 } {blockId},
    .stepped 0]

def slideCopied (jobId : JobId) : List SystemEvent :=
  [.copied 0 jobId, .connector (.updateConnectorOutput [(jobId, 1)])]

/-- The fourth step gives the third job's block away; the worker copies it before it runs the
step. -/
def slideSystemEvents : List SystemEvent :=
  .connector (.newRequest (slideRequest 0)) :: slideRun 0 1 ++ slideCopied 0 ++ slideRun 2 2 ++
    slideCopied 1 ++ slideRun 4 3 ++ (slideRun 6 3).take 2 ++ [.copied 0 2, .stepped 0]

abbrev SlideSystem := System (CpuManager.CPUOffloadingManager LruPolicy.LRUCachePolicy)

def slideSystemStart : SlideSystem :=
  System.start (.fromSpec slideSpec) {} none (.new { numBlocks := 2 } (.new 2)) ⟨fun _ => 0, 0⟩

theorem reused_source_copied : ∃ system : SlideSystem, SourcesKept system ∧
    (system.steps.map fun step => (step.connectorMeta.jobsToFlush, step.given)) =
      [(∅, {1}), (∅, {2}), (∅, {3}), ({2}, {3})] ∧
    system.stepped 0 = 4 ∧ system.done 2 = {0} := by
  have ran : (EventRuns.replay System.apply System.Permitted slideSystemStart
      slideSystemEvents).map (fun system =>
        ((system.steps.map fun step => (step.connectorMeta.jobsToFlush, step.given)),
          system.stepped 0, system.done 2)) =
      some ([(∅, {1}), (∅, {2}), (∅, {3}), ({2}, {3})], 4, {0}) := by decide +kernel
  obtain ⟨system, reaches, seen⟩ := EventRuns.exists_of_replay ran
  simp only [Prod.mk.injEq] at seen
  exact ⟨system, sources_kept reaches, seen⟩

/-- A step that computes the first block of a request, with full attention and one worker. -/
def blockStep (reqId : ReqId) : SystemEvent :=
  .step { reqData := [⟨reqId, [[1]], false⟩]
          numScheduledTokens := OrderedMap.empty.set reqId 2 } {1}

/-- A request is preempted before its store is reported, and its block goes to another request in
the step after. -/
example : (EventRuns.replay System.apply System.Permitted
    (System.start (.fromSpec { duoSpec with worldSize := 1 }) {} none
      (.new { numBlocks := 2 } (.new 2)) ⟨fun _ => 0, 0⟩ : SlideSystem)
    [.connector (.newRequest (slideRequest 0)),
      .connector (.newRequest { slideRequest 0 with requestId := 1 }), blockStep 0, .stepped 0,
      .step { preemptedReqIds := [0] } ∅, blockStep 1, .copied 0 0, .stepped 0, .stepped 0]).map
    (fun system => (system.steps.map fun step => (step.connectorMeta.jobsToFlush, step.given),
      system.stepped 0)) = some ([(∅, {1}), ({0}, ∅), (∅, {1})], 3) := by
  decide +kernel

end KvOffload.SourceReuse

