import KvOffload.ChunkKeys
import KvOffload.LoadedContents

/-!
# The connector and its workers

The connector over a CPU manager together with its workers, in every order of their steps.
The workers carry out the jobs of the metadata, each after the jobs that were to be flushed,
and report what they have finished. Every load that a worker has not finished finds the data
of its keys in its CPU blocks, across evictions and resets.
-/

namespace KvOffload.WorkerRuns

open KvOffload KvOffload.Base KvOffload.PolicyInterface KvOffload.CpuManager KvOffload.CpuPool
open KvOffload.CpuManagerSpec KvOffload.ConnectorConfig KvOffload.ConnectorRequests
open KvOffload.ManagerInterface KvOffload.ConnectorScheduler KvOffload.ConnectorLoads
open KvOffload.ConnectorStores KvOffload.ConnectorCompletion KvOffload.JobBooks
open KvOffload.ConnectorMoves KvOffload.JobInvariants KvOffload.ConnectorRuns
open KvOffload.PinnedBlocks KvOffload.JobLedger KvOffload.ResetRuns KvOffload.GatedCopies
open KvOffload.TransferRecords KvOffload.SentRecords KvOffload.BlockCustody
open KvOffload.StoredContents KvOffload.LoadedContents KvOffload.ChunkKeys

set_option autoImplicit false

variable {P : Type} [CachePolicy P]

/-- The connector's run, the workers, and the metadata that they were sent. -/
structure System (P : Type) where
  run : RunState (CpuKeeper P)
  fleet : WorkerFleet := {}
  metas : List OffloadingConnectorMetadata := []

inductive SystemEvent where
  | connector (event : ConnectorEvent)
  | worker (event : WorkerEvent JobId Nat Nat OffloadKey)

def jobIds (connectorMeta : OffloadingConnectorMetadata) : Finset JobId :=
  connectorMeta.loadJobs.keys.toFinset ∪ connectorMeta.storeJobs.keys.toFinset

/-- The metadata that an event gives to the workers. -/
def metadata (scheduler : OffloadingConnectorScheduler (CpuKeeper P)) :
    ConnectorEvent → Except PyError (Option OffloadingConnectorMetadata)
  | .buildConnectorMeta output =>
      (buildConnectorMeta scheduler output).map fun built => some built.1
  | _ => .ok none

namespace System

variable (system : System P)

omit [CachePolicy P] in
def manager : CpuKeeper P := system.run.scheduler.manager

def numWorkers : Nat := system.run.scheduler.config.numWorkers

def send (connectorMeta : OffloadingConnectorMetadata) : System P :=
  { system with
    fleet := system.fleet.send (jobIds connectorMeta) connectorMeta.jobsToFlush
    metas := system.metas ++ [connectorMeta] }

def start (config : SchedulerOffloadConfig) (settings : ConnectorSettings)
    (mambaAlignSize : Option Nat) (manager : CPUOffloadingManager P)
    (clock : StaleHitLadder.Clock) : System P where
  run := RunState.start config settings mambaAlignSize ⟨⟨manager, {}⟩, {}⟩ clock

def apply : SystemEvent → Except PyError (System P)
  | .connector event => do
      let run ← system.run.apply event
      let sent ← metadata system.run.scheduler event
      .ok (match sent with
        | none => { system with run := run }
        | some connectorMeta => { system with run := run }.send connectorMeta)
  | .worker event => .ok { system with fleet := applyWorker system.fleet event }

/-- A worker reports what it has finished. -/
def Finished : ConnectorEvent → Prop
  | .updateConnectorOutput reports => ∀ report ∈ reports,
      (system.run.ledger.noteAll system.numWorkers reports).reported report.1 ≤
        (system.fleet.done report.1).card
  | _ => True

def Permitted : SystemEvent → Prop
  | .connector event => system.run.Permitted event ∧ system.Finished event ∧
      HashesGrow system.run.scheduler event
  | .worker event => Allowed (tableOf system.manager) system.fleet event ∧
      event.actor < system.numWorkers

end System

instance (system : System P) (event : ConnectorEvent) : Decidable (system.Finished event) :=
  match event with
  | .updateConnectorOutput _ => inferInstanceAs (Decidable (∀ report ∈ _, _ ≤ _))
  | .newRequest _ => .isTrue trivial
  | .requestChanged _ => .isTrue trivial
  | .getNumNewMatchedTokens _ _ => .isTrue trivial
  | .updateStateAfterAlloc _ _ _ => .isTrue trivial
  | .buildConnectorMeta _ => .isTrue trivial
  | .requestFinished _ => .isTrue trivial
  | .resetCache => .isTrue trivial

instance (system : System P) (event : SystemEvent) : Decidable (system.Permitted event) :=
  match event with
  | .connector _ => inferInstanceAs (Decidable (_ ∧ _ ∧ _))
  | .worker _ => inferInstanceAs (Decidable (_ ∧ _))

section Reports

variable {numWorkers : Nat}

theorem note_all_reported_of_not_mem (reports : List (JobId × Int)) {ledger : Ledger}
    {jobId : JobId} (silent : jobId ∉ reports.map Prod.fst) :
    (ledger.noteAll numWorkers reports).reported jobId = ledger.reported jobId := by
  induction reports generalizing ledger with
  | nil => rfl
  | cons report rest ih =>
      rw [List.map_cons, List.mem_cons, not_or] at silent
      refine (ih silent.2).trans ?_
      obtain ⟨reported, count⟩ := report
      rw [note_reported, if_neg silent.1]

end Reports

section Loads

variable {sent : JobId → Prop} {before after : RunState (CpuKeeper P)} {event : ConnectorEvent}

theorem admit_counter {reqId : ReqId} {books later : Desk (CpuKeeper P)}
    (admits : Admit reqId books later) : later.jobCounter = books.jobCounter := by
  cases admits <;> rfl

theorem reset_counter {books later : Desk (CpuKeeper P)} (reset : Reset books later) :
    later.jobCounter = books.jobCounter := by
  cases reset
  rfl

theorem update_output_counter (reports : List (JobId × Int))
    {scheduler updated : OffloadingConnectorScheduler (CpuKeeper P)}
    (called : updateConnectorOutput scheduler reports = .ok updated) :
    updated.jobCounter = scheduler.jobCounter := by
  induction reports generalizing scheduler with
  | nil =>
      cases called
      rfl
  | cons report rest ih =>
      obtain ⟨middle, reported, called⟩ := bind_eq_ok.mp called
      obtain ⟨_, step⟩ := report_job_report reported
      exact (ih called).trans (report_frame step).2

/-- Between two steps the jobs are counted, and those not sent are gathered for the next one. -/
theorem event_linked (linked : Linked sent before.scheduler OrderedMap.empty)
    (permitted : before.Permitted event) (unbuilt : ∀ output, event ≠ .buildConnectorMeta output)
    (counted : (prepared after.scheduler.manager).length = after.scheduler.jobCounter)
    (grown : ∃ later, prepared after.scheduler.manager =
      prepared before.scheduler.manager ++ later)
    (applied : before.apply event = .ok after) :
    Linked sent after.scheduler OrderedMap.empty := by
  have kept : after.scheduler.currentBatchLoadJobs = before.scheduler.currentBatchLoadJobs →
      after.scheduler.jobCounter = before.scheduler.jobCounter →
      Linked sent after.scheduler OrderedMap.empty := by
    intro sameLoads sameCounter
    refine ⟨counted, ?_, records_empty _ _, ?_⟩
    · obtain ⟨later, grown⟩ := grown
      rw [grown, sameLoads]
      exact records_append linked.loads later
    · rw [sameLoads, sameCounter]
      exact linked.gathered
  cases event with
  | newRequest req =>
      cases applied
      exact kept rfl rfl
  | requestChanged req =>
      cases applied
      exact kept rfl rfl
  | getNumNewMatchedTokens reqId numComputedTokens =>
      obtain ⟨⟨answer, scheduler⟩, called, applied⟩ := bind_eq_ok.mp applied
      cases applied
      obtain ⟨batched, counter⟩ := get_num_batch called
      exact kept (congrArg (fun batch => batch.1) batched) counter
  | updateStateAfterAlloc reqId blocks numExternalTokens =>
      obtain ⟨scheduler, called, applied⟩ := bind_eq_ok.mp applied
      cases applied
      exact update_state_after_alloc_linked linked called
  | buildConnectorMeta output => exact absurd rfl (unbuilt output)
  | updateConnectorOutput completedJobs =>
      obtain ⟨scheduler, called, applied⟩ := bind_eq_ok.mp applied
      cases applied
      exact kept (congrArg (fun batch => batch.1) (update_output_batch completedJobs called))
        (update_output_counter completedJobs called)
  | requestFinished req =>
      obtain ⟨scheduler, called, applied⟩ := bind_eq_ok.mp applied
      cases applied
      exact kept (congrArg (fun batch => batch.1) (request_finished_batch called))
        (admit_counter (request_finished_admitted permitted called))
  | resetCache =>
      obtain ⟨scheduler, called, applied⟩ := bind_eq_ok.mp applied
      cases applied
      refine kept ?_ (reset_counter (reset_cache_reset called))
      rw [reset_cache_eq (idle_of_reset called)] at called
      obtain ⟨manager, _, same⟩ := map_eq_ok.mp called
      subst same
      rfl

omit [CachePolicy P] in
/-- Where the connector is reset, every job is sent. -/
theorem sent_of_idle {scheduler : OffloadingConnectorScheduler (CpuKeeper P)}
    (linked : Linked sent scheduler OrderedMap.empty) (idle : Idle scheduler) :
    ∀ jobId < scheduler.jobCounter, sent jobId := by
  intro jobId below
  have none : scheduler.currentBatchLoadJobs.entries = [] := List.isEmpty_iff.mp idle.1
  rcases linked.gathered jobId below with isSent | load | store
  · exact isSent
  · rw [OrderedMap.keys, none] at load
    cases load
  · cases store

end Loads

section Runs

variable [LawfulCachePolicy P]

/-- What holds in every state of the whole system. -/
structure SystemInv (system : System P) : Prop where
  tracked : TrackedIn system.run.known (desk system.run.scheduler)
  batch : BatchInv system.run
  linked : Linked (· ∈ system.fleet.sent) system.run.scheduler OrderedMap.empty
  ranked : Ranked system.fleet
  sent : ∀ connectorMeta ∈ system.metas,
    Records (prepared system.manager) false connectorMeta.loadJobs ∧
      Records (prepared system.manager) true connectorMeta.storeJobs
  reported : ∀ jobId, system.run.ledger.reported jobId ≤ (system.fleet.done jobId).card
  keyed : ChunkKeyed system.run.scheduler
  watched : Watched system.fleet (system.fleet.flushed ∪ system.run.unsent)
    (prepared system.manager) system.run.ledger (desk system.run.scheduler)

variable {system after : System P}

/-- Whatever the connector does but reset, before anything is sent. -/
theorem event_watched {run : RunState (CpuKeeper P)} {event : ConnectorEvent}
    (inv : SystemInv system) (permitted : system.run.Permitted event)
    (keeps : event ≠ .resetCache) (applied : system.run.apply event = .ok run) :
    TrackedIn run.known (desk run.scheduler) ∧
      Watched system.fleet (system.fleet.flushed ∪ system.run.unsent) (prepared system.manager)
        run.ledger (desk run.scheduler) := by
  refine event_rule permitted (served_only_lax system.run event) ?_ ?_ ?_ ?_
    (fun isReset => absurd isReset keeps) inv.tracked inv.watched applied
  · exact fun _ _ _ watched move => move_watched watched move
  · exact fun _ _ _ watched signal => signal_watched watched signal
  · exact fun _ _ _ _ watched admits => admit_watched watched admits
  · exact fun _ _ _ _ _ watched _ positive room report =>
      report_watched watched positive room report

/-- The system after an event of the connector with which nothing is sent. -/
theorem inv_of_watched {run : RunState (CpuKeeper P)} {event : ConnectorEvent}
    (inv : SystemInv system) (permitted : system.run.Permitted event)
    (unbuilt : ∀ output, event ≠ .buildConnectorMeta output) (grows : HashesGrow system.run.scheduler event)
    (applied : system.run.apply event = .ok run) (tracked : TrackedIn run.known (desk run.scheduler))
    (reported : ∀ jobId, run.ledger.reported jobId ≤ (system.fleet.done jobId).card)
    (watched : Watched system.fleet (system.fleet.flushed ∪ run.unsent) (prepared system.manager)
      run.ledger (desk run.scheduler)) : SystemInv { system with run := run } where
  tracked := tracked
  batch := apply_batch_inv inv.batch applied
  linked := event_linked inv.linked permitted unbuilt watched.counted watched.grown applied
  ranked := inv.ranked
  sent := by
    intro connectorMeta member
    obtain ⟨later, grown⟩ := watched.grown
    obtain ⟨loads, stores⟩ := inv.sent connectorMeta member
    have grown : prepared run.scheduler.manager = prepared system.manager ++ later := grown
    show Records (prepared run.scheduler.manager) false _ ∧
      Records (prepared run.scheduler.manager) true _
    rw [grown]
    exact ⟨records_append loads later, records_append stores later⟩
  reported := reported
  keyed := apply_keyed inv.keyed grows applied
  watched := ⟨watched.book, watched.counted, ⟨[], (List.append_nil _).symm⟩, watched.contents⟩

theorem finished_reported {reports : List (JobId × Int)} (inv : SystemInv system)
    (finished : system.Finished (.updateConnectorOutput reports)) (jobId : JobId) :
    (system.run.ledger.noteAll system.numWorkers reports).reported jobId ≤
      (system.fleet.done jobId).card := by
  by_cases told : jobId ∈ reports.map Prod.fst
  · obtain ⟨report, member, rfl⟩ := List.mem_map.mp told
    exact finished report member
  · rw [note_all_reported_of_not_mem reports told]
    exact inv.reported jobId

/-- The jobs of a metadata are jobs that were issued. -/
theorem issued_of_records {entries : List Prepared} {isStore : Bool}
    {jobs : OrderedMap JobId TransferJob} (records : Records entries isStore jobs)
    {jobId : JobId} (member : jobId ∈ jobs.keys) : jobId < entries.length := by
  obtain ⟨job, found⟩ := Option.isSome_iff_exists.mp ((OrderedMap.mem_keys_iff _ _).mp member)
  obtain ⟨keys, entry⟩ := records jobId job found
  exact (List.getElem?_eq_some_iff.mp entry).1

theorem build_inv {output : SchedulerOutput} {connectorMeta : OffloadingConnectorMetadata}
    {scheduler : OffloadingConnectorScheduler (CpuKeeper P)} {run : RunState (CpuKeeper P)}
    (inv : SystemInv system)
    (permitted : system.run.Permitted (.buildConnectorMeta output))
    (grows : HashesGrow system.run.scheduler (.buildConnectorMeta output))
    (called : buildConnectorMeta system.run.scheduler output = .ok (connectorMeta, scheduler))
    (applied : system.run.apply (.buildConnectorMeta output) = .ok run) :
    SystemInv ({ system with run := run }.send connectorMeta) := by
  obtain ⟨tracked, watched⟩ := event_watched inv permitted (by rintro ⟨⟩) applied
  obtain ⟨linked, loads, stores⟩ := build_meta_records inv.linked called
  have flushes := build_meta_flushes called
  have batch := apply_batch_inv inv.batch applied
  have keyed := apply_keyed inv.keyed grows applied
  obtain ⟨⟨sameMeta, sameScheduler⟩, again, same⟩ := bind_eq_ok.mp applied
  cases called.symm.trans again
  cases same
  rw [inv.batch.flush] at flushes
  refine ⟨tracked, batch, ⟨linked.counted, linked.loads, linked.stores, fun jobId below => ?_⟩,
    ranked_send inv.ranked _ _, ?_, inv.reported, keyed, ?_⟩
  · rcases linked.gathered jobId below with (isSent | load | store) | here
    · exact .inl (Finset.mem_union_left _ isSent)
    · exact .inl (Finset.mem_union_right _ (Finset.mem_union_left _ (List.mem_toFinset.mpr load)))
    · exact .inl (Finset.mem_union_right _ (Finset.mem_union_right _ (List.mem_toFinset.mpr store)))
    · exact .inr here
  · intro other member
    rcases List.mem_append.mp member with earlier | new
    · obtain ⟨later, grown⟩ := watched.grown
      have grown : prepared scheduler.manager = prepared system.manager ++ later := grown
      obtain ⟨earlierLoads, earlierStores⟩ := inv.sent other earlier
      show Records (prepared scheduler.manager) false _ ∧ Records (prepared scheduler.manager) true _
      rw [grown]
      exact ⟨records_append earlierLoads later, records_append earlierStores later⟩
    · cases List.mem_singleton.mp new
      exact ⟨loads, stores⟩
  · have sent := @watched_send _ _ _ _ _ _ _ _ watched (jobIds connectorMeta)
      connectorMeta.jobsToFlush (by
        intro jobId member
        rw [← watched.counted]
        rcases Finset.mem_union.mp member with load | store
        · exact issued_of_records loads (List.mem_toFinset.mp load)
        · exact issued_of_records stores (List.mem_toFinset.mp store))
      (Finset.union_subset_union_right flushes)
    refine ⟨sent.book, sent.counted, ⟨[], (List.append_nil _).symm⟩, ?_⟩
    show _ → _ → Contents _ (_ ∪ ∅) _
    rw [Finset.union_empty]
    exact sent.contents

/-- What the calls other than steps and resets leave of what an onlooker knows. -/
theorem quiet_ledger {run : RunState (CpuKeeper P)} {event : ConnectorEvent}
    (inv : SystemInv system) (finished : system.Finished event) (keeps : event ≠ .resetCache)
    (unbuilt : ∀ output, event ≠ .buildConnectorMeta output)
    (applied : system.run.apply event = .ok run) :
    run.unsent = system.run.unsent ∧
      ∀ jobId, run.ledger.reported jobId ≤ (system.fleet.done jobId).card := by
  cases event with
  | buildConnectorMeta output => exact absurd rfl (unbuilt output)
  | resetCache => exact absurd rfl keeps
  | updateConnectorOutput reports =>
      obtain ⟨_, _, same⟩ := bind_eq_ok.mp applied
      cases same
      exact ⟨rfl, finished_reported inv finished⟩
  | newRequest _ =>
      cases applied
      exact ⟨rfl, inv.reported⟩
  | requestChanged _ =>
      cases applied
      exact ⟨rfl, inv.reported⟩
  | getNumNewMatchedTokens _ _ =>
      obtain ⟨_, _, same⟩ := bind_eq_ok.mp applied
      cases same
      exact ⟨rfl, inv.reported⟩
  | updateStateAfterAlloc _ _ _ =>
      obtain ⟨_, _, same⟩ := bind_eq_ok.mp applied
      cases same
      exact ⟨rfl, inv.reported⟩
  | requestFinished _ =>
      obtain ⟨_, _, same⟩ := bind_eq_ok.mp applied
      cases same
      exact ⟨rfl, inv.reported⟩

theorem connector_inv {event : ConnectorEvent} (inv : SystemInv system)
    (permitted : system.Permitted (.connector event))
    (applied : system.apply (.connector event) = .ok after) : SystemInv after := by
  obtain ⟨permitted, finished, grows⟩ := permitted
  obtain ⟨run, ran, applied⟩ := bind_eq_ok.mp applied
  obtain ⟨sent, told, applied⟩ := bind_eq_ok.mp applied
  cases event with
  | buildConnectorMeta output =>
      obtain ⟨⟨connectorMeta, scheduler⟩, called, same⟩ := map_eq_ok.mp told
      cases same
      cases applied
      exact build_inv inv permitted grows called ran
  | resetCache =>
      cases told
      cases applied
      have applied := ran
      obtain ⟨scheduler, called, same⟩ := bind_eq_ok.mp ran
      cases same
      have step := reset_cache_reset called
      have known := sent_of_idle inv.linked (idle_of_reset called)
      have watched := reset_watched inv.watched known step
      rw [Finset.union_assoc] at watched
      exact inv_of_watched inv permitted (by rintro _ ⟨⟩) grows applied
        (reset_tracked_in inv.tracked step) inv.reported watched
  | _ =>
      cases told
      cases applied
      obtain ⟨unsent, reported⟩ :=
        quiet_ledger inv finished (by rintro ⟨⟩) (by rintro _ ⟨⟩) ran
      obtain ⟨tracked, watched⟩ := event_watched inv permitted (by rintro ⟨⟩) ran
      rw [← unsent] at watched
      exact inv_of_watched inv permitted (by rintro _ ⟨⟩) grows ran tracked reported watched

theorem apply_inv {event : SystemEvent} (inv : SystemInv system)
    (permitted : system.Permitted event) (applied : system.apply event = .ok after) :
    SystemInv after := by
  cases event with
  | connector event => exact connector_inv inv permitted applied
  | worker event =>
      cases applied
      obtain ⟨allowed, inside⟩ := permitted
      obtain ⟨isSent, _, flushed⟩ := @apply_worker_sent _ _ _ _ _ _ _ system.fleet event
      refine ⟨inv.tracked, inv.batch, ⟨inv.linked.counted, inv.linked.loads, inv.linked.stores, ?_⟩,
        ranked_worker inv.ranked event, inv.sent, ?_, inv.keyed, ?_⟩
      · show ∀ jobId < _, jobId ∈ (applyWorker system.fleet event).sent ∨ _
        rw [isSent]
        exact inv.linked.gathered
      · intro jobId
        apply (inv.reported jobId).trans
        exact_mod_cast Finset.card_le_card fun worker done =>
          (apply_worker_done allowed worker jobId).mpr (.inl done)
      · have watched := watched_worker inv.watched inv.reported allowed inside
        rw [← flushed] at watched
        exact watched

theorem start_contents {fleet : WorkerFleet} {books : Desk (CpuKeeper P)}
    (unused : fleet = {}) (pool : PoolInv (tier books.manager))
    (empty : (tier books.manager).get = fun _ => none)
    (unprepared : prepared books.manager = []) (counter : books.jobCounter = 0)
    (threshold : books.staleJobThreshold = 0) (jobs : books.jobs = OrderedMap.empty) :
    Contents fleet ∅ books := by
  subst unused
  have unbound : ∀ key blockId, ¬ReadyOn books key blockId := by
    rintro key blockId ⟨block, bound, _⟩
    rw [empty] at bound
    cases bound
  have dead : ∀ jobId entry, ¬Live books jobId entry := by
    rintro jobId entry ⟨⟨job, found⟩, _⟩
    rw [jobs] at found
    cases found
  have noEntry : ∀ (jobId : JobId) (entry : Prepared),
      (prepared books.manager)[jobId]? ≠ some entry := by
    intro jobId entry found
    rw [unprepared] at found
    cases found
  have custody : Custody books := by
    constructor
    · exact pool
    · rw [unprepared, counter]
      rfl
    · rw [unprepared]
      exact fun entry member => absurd member (List.not_mem_nil)
    · rw [jobs]
      exact fun jobId job found => by cases found
    · exact fun jobId entry live => absurd live (dead jobId entry)
    · exact fun first _ left _ live => absurd live (dead first left)
    · exact fun jobId entry live => absurd live (dead jobId entry)
    · rw [jobs]
      exact fun key => Nat.zero_le _
  have orders : OrderInv {} ∅ books.numWorkers books.staleJobThreshold books.jobCounter := by
    rw [threshold, counter]
    constructor
    · exact fun jobId sent => absurd sent (Finset.notMem_empty jobId)
    · exact fun jobId worker done => absurd done (Finset.notMem_empty worker)
    · exact fun jobId => Finset.empty_subset _
    · exact fun stale old => absurd old (Nat.not_lt_zero stale)
    · exact fun stale old => absurd old (Nat.not_lt_zero stale)
    · exact fun jobId sent => absurd sent (Finset.notMem_empty jobId)
  constructor
  · exact custody
  · exact orders
  · rw [counter]
    exact fun jobId _ below => absurd below (Nat.not_lt_zero jobId)
  · exact fun key blockId ready => absurd ready (unbound key blockId)
  · exact fun key blockId ready => absurd ready (unbound key blockId)
  · exact fun jobId entry live => absurd live (dead jobId entry)
  · exact fun jobId entry found => absurd found (noEntry jobId entry)
  · exact fun store _ left _ found => absurd found (noEntry store left)

theorem start_inv (config : SchedulerOffloadConfig) (settings : ConnectorSettings)
    (mambaAlignSize : Option Nat) {manager : CPUOffloadingManager P} (clock : StaleHitLadder.Clock)
    (pool : PoolInv manager) (empty : manager.get = fun _ => none) :
    SystemInv (System.start config settings mambaAlignSize manager clock) where
  tracked := fun reqId request found => by cases found
  batch := ⟨rfl, fun _ => ⟨rfl, rfl⟩⟩
  linked := ⟨rfl, records_empty _ _, records_empty _ _, fun jobId below =>
    absurd below (Nat.not_lt_zero jobId)⟩
  ranked := ranked_start
  sent := fun connectorMeta member => absurd member List.not_mem_nil
  reported := fun _ => le_rfl
  keyed := start_keyed ..
  watched := ⟨start_book_inv .., rfl, ⟨[], rfl⟩, fun _ _ =>
    start_contents rfl pool empty rfl rfl rfl rfl⟩

/-- What the workers read: every ready key's block holds the key's data on all of them, and so
do the blocks of a load for its keys wherever the load is not finished. No job that a worker
may run at this point overwrites such a block, and a worker that has not finished all jobs may
run one. -/
structure ReadsStored (system : System P) : Prop where
  ready : ∀ key block, (tier system.manager).get key = some block → 0 ≤ block.refCnt →
    ∀ worker < system.numWorkers,
      system.fleet.cells worker block.blockId = some key ∧
        ¬Writable (tableOf system.manager) system.fleet worker block.blockId
  loads : ∀ connectorMeta ∈ system.metas, ∀ jobId job,
    connectorMeta.loadJobs.get? jobId = some job →
    ∃ keys, (prepared system.manager)[jobId]? = some ⟨false, keys, job.cpuBlockIds⟩ ∧
      job.cpuBlockIds.length = keys.length ∧
      ∀ worker < system.numWorkers, worker ∉ system.fleet.done jobId →
        ∀ slot ∈ keys.zip job.cpuBlockIds,
          system.fleet.cells worker slot.2 = some slot.1 ∧
            ¬Writable (tableOf system.manager) system.fleet worker slot.2
  proceeds : ∀ worker, ∀ jobId ∈ system.fleet.sent, worker ∉ system.fleet.done jobId →
    ∃ next, system.fleet.Runs worker next

theorem reads_stored_of_inv (inv : SystemInv system) : ReadsStored system := by
  have contents := inv.watched.contents inv.reported inv.keyed.distinct
  constructor
  · intro key block bound nonneg worker inside
    have ready : ReadyOn (desk system.run.scheduler) key block.blockId :=
      ⟨block, bound, nonneg, rfl⟩
    exact ⟨contents.kept key block.blockId ready worker inside,
      ready_shielded contents ready inside⟩
  · intro connectorMeta member jobId job found
    obtain ⟨keys, isEntry⟩ := (inv.sent connectorMeta member).1 jobId job found
    refine ⟨keys, isEntry, contents.custody.sized _ (List.mem_of_getElem? isEntry), ?_⟩
    intro worker inside unfinished slot slotMember
    exact ⟨contents.unread jobId _ isEntry rfl worker inside unfinished slot slotMember,
      unread_shielded contents isEntry rfl slotMember inside unfinished⟩
  · exact fun worker jobId isSent unfinished => exists_runs inv.ranked isSent unfinished

/-- Every run of the system from a new manager reads what was stored. -/
def LoadsSound (policy : P) : Prop :=
  ∀ config settings mambaAlignSize params clock (system : System P),
    EventRuns.Reaches System.apply System.Permitted
      (System.start config settings mambaAlignSize (.new params policy) clock) system →
    ReadsStored system

theorem loads_sound_of_lawful {policy : P} (policyInv : LawfulCachePolicy.Inv policy)
    (empty : ∀ key, CachePolicy.get policy key = none) : LoadsSound policy := by
  intro config settings mambaAlignSize params clock system reaches
  obtain ⟨pool, getNew⟩ := new_spec params policy policyInv empty
  apply reads_stored_of_inv
  apply EventRuns.reaches_invariant _ (start_inv config settings mambaAlignSize clock pool getNew)
    reaches
  exact fun before event after inv permitted applied => apply_inv inv permitted applied

end Runs

theorem lru_and_arc_loads_sound (cacheCapacity : Nat)
    (rounding : FloatRounding.Rounding) :
    LoadsSound (LruPolicy.LRUCachePolicy.new cacheCapacity) ∧
      LoadsSound (ArcPolicy.ARCCachePolicy.new cacheCapacity rounding) := by
  constructor
  · apply loads_sound_of_lawful
    · intro key
      simp [LruPolicy.LRUCachePolicy.new]
    · exact fun _ => rfl
  · apply loads_sound_of_lawful
    · exact fun _ => Or.inl rfl
    · exact fun _ => rfl

def reuseGroups : List OffloadingGroupConfig := [⟨2, 0⟩]

/-- Chunks of one block, and one worker. -/
def reuseSpec : OffloadingSpec where
  groups := reuseGroups
  kvCacheGroups := [⟨.fullAttention, false⟩]
  blocksPerChunk := 1
  tokensPerHash := 2
  worldSize := 1
  decodeContextParallelSize := 1
  offloadPromptOnly := false
  useEagle := false
  ordered := by decide
  bounded := by decide
  blocks_pos := Nat.one_pos
  hash_pos := Nat.two_pos
  hash_fits := by decide

abbrev ReuseSystem := System LruPolicy.LRUCachePolicy

/-- The CPU tier has one block. -/
def reuseStart : ReuseSystem :=
  System.start (.fromSpec reuseSpec) {} none (.new { numBlocks := 1 } (.new 1)) ⟨fun _ => 0, 0⟩

def reuseRequest (reqId : ReqId) (numTokens : Nat) (blockHash : BlockHash) : ConnectorEvent :=
  .newRequest ⟨reqId, numTokens, numTokens, 0, [blockHash], .unfinished, false, .all, none⟩

/-- A step that stores the first chunk of a request. -/
def reuseStep (reqId : ReqId) (blockId : Nat) : ConnectorEvent :=
  .buildConnectorMeta
    { reqData := [⟨reqId, [[blockId]], false⟩]
      newReqIds := [reqId]
      numScheduledTokens := OrderedMap.empty.set reqId 2 }

/-- A chunk is stored and its load sent; after a reset another chunk is stored in its block
before the worker has loaded the first. -/
def reuseEvents : List SystemEvent :=
  [.connector (reuseRequest 0 2 [0]), .connector (reuseStep 0 5),
    .worker (.copying 0 0 0 (some ⟨[0], 0⟩)), .worker (.copied 0 0),
    .connector (.updateConnectorOutput [(0, 1)]),
    .connector (reuseRequest 1 3 [0]), .connector (.getNumNewMatchedTokens 1 0),
    .connector (.updateStateAfterAlloc 1 [[⟨7, false, false⟩, ⟨8, false, false⟩]] 2),
    .connector (.buildConnectorMeta { reqData := [⟨1, [[7, 8]], false⟩], newReqIds := [1] }),
    .connector .resetCache,
    .connector (reuseRequest 2 2 [9]), .connector (reuseStep 2 6)]

/-- The load's block holds the first chunk until the load is done. -/
theorem reused_block_shielded :
    ∃ system : ReuseSystem, ReadsStored system ∧
      (system.metas.map fun sent => (sent.loadJobs.keys, sent.storeJobs.keys)) =
        [([], [0]), ([1], []), ([], [2])] ∧
      system.fleet.done 1 = ∅ ∧ system.fleet.cells 0 0 = some ⟨[0], 0⟩ := by
  have ran : (EventRuns.replay System.apply System.Permitted reuseStart reuseEvents).map
      (fun system => ((system.metas.map fun sent => (sent.loadJobs.keys, sent.storeJobs.keys)),
        system.fleet.done 1, system.fleet.cells 0 0)) =
      some ([([], [0]), ([1], []), ([], [2])], ∅, some ⟨[0], 0⟩) := by decide +kernel
  obtain ⟨system, reaches, seen⟩ := EventRuns.exists_of_replay ran
  simp only [Prod.mk.injEq] at seen
  exact ⟨system, (lru_and_arc_loads_sound 1 .exact).1 _ _ _ _ _ system reaches, seen⟩

/-- A request finishes, and the step that stores its chunk hands its block out again. -/
def lateEvents : List SystemEvent :=
  [.connector (reuseRequest 0 2 [0]),
    .connector (.buildConnectorMeta
      { reqData := [⟨0, [[5]], false⟩]
        newReqIds := [0]
        numScheduledTokens := OrderedMap.empty.set 0 1 }),
    .connector (.requestFinished ⟨0, 2, 2, 2, [[0]], .finished, false, .all, none⟩),
    .connector (reuseRequest 1 2 [9]),
    .connector (.buildConnectorMeta
      { reqData := [⟨1, [[5]], false⟩]
        newReqIds := [1]
        numScheduledTokens := OrderedMap.empty.set 1 1
        finishedReqIds := [0] })]

/-- The store is copied and reported, and a later step stores in its CPU block. -/
def lateCopied : List SystemEvent :=
  [.worker (.copying 0 0 0 (some ⟨[0], 0⟩)), .worker (.copied 0 0),
    .connector (.updateConnectorOutput [(0, 1)]),
    .connector (.requestChanged ⟨1, 2, 2, 1, [[9]], .unfinished, false, .all, none⟩),
    .connector (.buildConnectorMeta { numScheduledTokens := OrderedMap.empty.set 1 1 })]

/-- The store is flushed by its own metadata and does not wait for itself; the next store waits for
it. -/
example : (EventRuns.replay System.apply System.Permitted reuseStart (lateEvents ++ lateCopied)).map
    (fun system => (system.metas.map fun sent => (sent.storeJobs.keys, sent.jobsToFlush),
      system.fleet.awaited 1, decide (system.fleet.Runs 0 1))) =
    some ([([], ∅), ([0], {0}), ([1], ∅)], {0}, true) := by
  decide +kernel

end KvOffload.WorkerRuns
