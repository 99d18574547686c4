import KvOffload.ManagerRuns
import KvOffload.SentRecords
import KvOffload.StoredContents
import KvOffload.ArcPolicy

/-!
# Contents while the connector works

What the connector does to its books leaves the contents of the CPU blocks in order, whether
it asks the CPU manager, issues a job, takes a report or resets.
-/

namespace KvOffload.LoadedContents

open KvOffload KvOffload.Base KvOffload.PolicyInterface KvOffload.CpuManager KvOffload.CpuPool
open KvOffload.CpuManagerSpec KvOffload.ConnectorConfig KvOffload.ConnectorRequests
open KvOffload.ManagerInterface KvOffload.ConnectorScheduler KvOffload.ConnectorLoads
open KvOffload.ConnectorStores KvOffload.ConnectorCompletion KvOffload.JobBooks
open KvOffload.ConnectorMoves KvOffload.JobInvariants KvOffload.ConnectorRuns
open KvOffload.PinnedBlocks KvOffload.JobLedger KvOffload.ResetRuns KvOffload.GatedCopies
open KvOffload.TransferRecords KvOffload.SentRecords KvOffload.BlockCustody
open KvOffload.StoredContents

set_option autoImplicit false

variable {P : Type} [CachePolicy P]

section Calls

/-- A store that accepts no key binds no block and evicts none. -/
theorem declined_same {manager after : CPUOffloadingManager P} {keys : List OffloadKey}
    {bypassThreshold : Bool} {output : PrepareStoreOutput}
    (declined : manager.prepareStore keys bypassThreshold = .ok (some output, after))
    (nothing : output.keysToStore = []) : SamePool manager after := by
  have gateSame := (gate_keys_spec manager keys bypassThreshold).1
  unfold CPUOffloadingManager.prepareStore at declined
  generalize manager.gateKeys keys bypassThreshold = gated at gateSame declined
  obtain ⟨passing, gatedManager⟩ := gated
  dsimp only at gateSame declined
  split at declined
  · cases declined
    exact gateSame
  · rename_i something
    obtain ⟨⟨toEvict, roomy⟩, _, declined⟩ := bind_eq_ok.mp declined
    cases toEvict with
    | none => cases declined
    | some toEvict =>
        obtain ⟨⟨reserved, last⟩, reserving, declined⟩ := bind_eq_ok.mp declined
        cases declined
        unfold CPUOffloadingManager.reserveBlocks at reserving
        obtain ⟨⟨blocks, allocated⟩, _, reserving⟩ := bind_eq_ok.mp reserving
        obtain ⟨_, _, reserving⟩ := bind_eq_ok.mp reserving
        cases reserving
        exact absurd nothing something

variable [LawfulCachePolicy P]

/-- A call that binds the same blocks and records nothing. -/
structure SameTier (manager after : CpuKeeper P) : Prop where
  unrecorded : Unrecorded manager after
  pool : PoolInv (tier manager) → PoolInv (tier after)
  get : PoolInv (tier manager) → (tier after).get = (tier manager).get

variable {manager after : CpuKeeper P}

theorem same_tier_of_pool (unrecorded : Unrecorded manager after)
    (same : SamePool (tier manager) (tier after)) : SameTier manager after :=
  ⟨unrecorded, same_pool_inv same, fun _ => same_pool_get same⟩

theorem same_tier_trans {middle : CpuKeeper P} (first : SameTier manager middle)
    (second : SameTier middle after) : SameTier manager after :=
  ⟨unrecorded_trans first.unrecorded second.unrecorded, fun pool => second.pool (first.pool pool),
    fun pool => (second.get (first.pool pool)).trans (first.get pool)⟩

theorem lookup_same_tier {key : OffloadKey} {reqContext : ReqContext} {result : LookupResult}
    (call : OffloadingLookup.lookup manager key reqContext = .ok (result, after)) :
    SameTier manager after := by
  obtain ⟨looked, unrecorded⟩ := lookup_recorded call
  have looked : (tier manager).lookup key = .ok (result, tier after) := looked
  exact same_tier_of_pool unrecorded (lookup_spec looked).1

theorem touch_same_tier (manager : CpuKeeper P) (keys : List OffloadKey) :
    SameTier manager (OffloadingLookup.touch manager keys) :=
  ⟨⟨rfl, rfl⟩, fun pool => (touch_ok pool keys).1, fun pool => (touch_ok pool keys).2⟩

theorem on_request_finished_same_tier {reqContext : ReqContext}
    (call : OffloadingManager.onRequestFinished manager reqContext = .ok after) :
    SameTier manager after := by
  obtain ⟨told, unrecorded⟩ := on_request_finished_recorded call
  have same : tier manager = tier after := Except.ok.inj told
  exact ⟨unrecorded, fun pool => same ▸ pool, fun _ => by rw [same]⟩

theorem on_schedule_end_same_tier {context : ScheduleEndContext}
    (call : OffloadingManager.onScheduleEnd manager context = .ok after) :
    SameTier manager after := by
  obtain ⟨told, unrecorded⟩ := on_schedule_end_recorded call
  have same : tier manager = tier after := Except.ok.inj told
  exact ⟨unrecorded, fun pool => same ▸ pool, fun _ => by rw [same]⟩

omit [LawfulCachePolicy P] in
theorem finish_all_same_tier (contexts : List ReqContext) {manager : CpuKeeper P}
    (calls : finishAll manager contexts = .ok after) :
    tier after = tier manager ∧ Unrecorded manager after := by
  induction contexts generalizing manager with
  | nil =>
      cases calls
      exact ⟨rfl, rfl, rfl⟩
  | cons reqContext rest ih =>
      obtain ⟨middle, call, calls⟩ := bind_eq_ok.mp calls
      obtain ⟨told, unrecorded⟩ := on_request_finished_recorded call
      have same : tier manager = tier middle := Except.ok.inj told
      obtain ⟨later, laterUnrecorded⟩ := ih calls
      exact ⟨later.trans same.symm, unrecorded_trans unrecorded laterUnrecorded⟩

end Calls

section Steps

variable [LawfulCachePolicy P]

/-- What holds beside a fleet while the connector handles an event: the books are in order,
nothing recorded is lost, and the contents are in order as long as the workers have finished
what they reported and the offers were of distinct keys. -/
structure Watched (fleet : WorkerFleet) (flushing : Finset JobId) (first : List Prepared)
    (ledger : Ledger) (books : Desk (CpuKeeper P)) : Prop where
  book : BookInv ledger books
  counted : (prepared books.manager).length = books.jobCounter
  grown : ∃ later, prepared books.manager = first ++ later
  contents : (∀ jobId, ledger.reported jobId ≤ (fleet.done jobId).card) →
    (∀ offer ∈ offers books.manager, offer.Nodup) → Contents fleet flushing books

variable {fleet : WorkerFleet} {flushing : Finset JobId} {first : List Prepared}
  {ledger : Ledger} {books after : Desk (CpuKeeper P)}

/-- A call that binds the same blocks leaves the contents in order. -/
theorem watched_quiet (watched : Watched fleet flushing first ledger books)
    (book : BookInv ledger after) (same : SameTier books.manager after.manager)
    (workers : after.numWorkers = books.numWorkers)
    (threshold : after.staleJobThreshold = books.staleJobThreshold)
    (counter : after.jobCounter = books.jobCounter) (jobs : after.jobs = books.jobs) :
    Watched fleet flushing first ledger after where
  book := book
  counted := by
    rw [same.unrecorded.prepared, counter]
    exact watched.counted
  grown := by
    rw [same.unrecorded.prepared]
    exact watched.grown
  contents reported distinct := by
    rw [same.unrecorded.offers] at distinct
    have contents := watched.contents reported distinct
    have pool := contents.custody.pool
    have custody : Custody after := by
      apply custody_of_same contents.custody (same.pool pool) (same.get pool)
        same.unrecorded.prepared counter
      · rw [jobs]
        exact fun _ => rfl
      · rw [jobs]
    apply contents_of_same contents custody (same.get pool) same.unrecorded.prepared workers
      threshold counter
    rw [jobs]
    exact fun _ => rfl

omit [CachePolicy P] [LawfulCachePolicy P] in
theorem fresh_id (jobs : JobInv books) : books.jobs.get? books.jobCounter = none := by
  cases found : books.jobs.get? books.jobCounter with
  | none => rfl
  | some job => exact absurd (jobs.below _ job found) (lt_irrefl _)

theorem grown_more {entries : List Prepared} (grown : ∃ later, entries = first ++ later)
    (more : List Prepared) : ∃ later, entries ++ more = first ++ later := by
  obtain ⟨later, same⟩ := grown
  exact ⟨later ++ more, by rw [same, List.append_assoc]⟩

theorem move_watched {lax : Prop} (watched : Watched fleet flushing first ledger books)
    (move : Move lax books after) : Watched fleet flushing first ledger after := by
  have book : BookInv ledger after := by
    obtain ⟨jobs, fences⟩ := move_keeps move watched.book.jobs watched.book.fences
    exact ⟨jobs, fences, move_ledger move watched.book.ledger watched.book.jobs⟩
  have fresh := fresh_id watched.book.jobs
  cases move with
  | looked _ _ call => exact watched_quiet watched book (lookup_same_tier call) rfl rfl rfl rfl
  | touched keys => exact watched_quiet watched book (touch_same_tier _ keys) rfl rfl rfl rfl
  | scheduleEnded call =>
      exact watched_quiet watched book (on_schedule_end_same_tier call) rfl rfl rfl rfl
  | drained =>
      exact watched_quiet watched book ⟨⟨rfl, rfl⟩, id, fun _ => rfl⟩ rfl rfl rfl rfl
  | @loadIssued reqId request keys blockIds manager _ _ _ call =>
      obtain ⟨inner, recorded, offered⟩ := prepare_load_recorded call
      refine ⟨book, ?_, ?_, ?_⟩
      · show (prepared manager).length = books.jobCounter + 1
        rw [recorded, List.length_append, watched.counted]
        rfl
      · show ∃ later, prepared manager = first ++ later
        rw [recorded]
        exact grown_more watched.grown _
      · intro reported distinct
        have distinct : ∀ offer ∈ offers manager, offer.Nodup := distinct
        rw [offered] at distinct
        have contents := watched.contents reported distinct
        have inner : (tier books.manager).prepareLoad keys = .ok (blockIds, tier manager) := inner
        exact contents_load contents fresh inner recorded rfl rfl
  | @storeDeclined reqId request keys bypassThreshold output manager _ _ call nothing =>
      obtain ⟨inner, recorded, offered⟩ := prepare_store_recorded call
      have inner : (tier books.manager).prepareStore keys bypassThreshold =
          .ok (output, tier manager) := inner
      have silent : TransferLog.accepted output = [] := by
        cases output with
        | none => rfl
        | some output => exact if_pos (nothing output rfl)
      rw [silent, List.append_nil] at recorded
      have earlier : ∀ offer ∈ offers books.manager, offer ∈ offers manager := by
        rw [offered]
        exact fun offer member => List.mem_append_left _ member
      refine ⟨book, ?_, ?_, ?_⟩
      · show (prepared manager).length = books.jobCounter
        rw [recorded]
        exact watched.counted
      · show ∃ later, prepared manager = first ++ later
        rw [recorded]
        exact watched.grown
      · intro reported distinct
        have contents := watched.contents reported fun offer member =>
          distinct offer (earlier offer member)
        have keysDistinct : keys.Nodup := by
          apply distinct keys
          show keys ∈ offers manager
          rw [offered]
          exact List.mem_append_right _ (List.mem_singleton_self keys)
        obtain ⟨pool, outcome⟩ :=
          TieringOperations.prepare_store_spec keysDistinct inner contents.custody.pool
        have same : (tier manager).get = (tier books.manager).get := by
          cases output with
          | none => exact outcome
          | some output => exact same_pool_get (declined_same inner (nothing output rfl))
        have custody : Custody (books.withManager manager) :=
          custody_with_manager contents.custody pool same recorded
        exact contents_of_same contents custody same recorded rfl rfl rfl fun _ => rfl
  | @storeIssued reqId request keys bypassThreshold output manager fenced deferred _ _ call
      something =>
      obtain ⟨inner, recorded, offered⟩ := prepare_store_recorded call
      have inner : (tier books.manager).prepareStore keys bypassThreshold =
          .ok (some output, tier manager) := inner
      rw [TransferLog.accepted, if_neg something] at recorded
      have earlier : ∀ offer ∈ offers books.manager, offer ∈ offers manager := by
        rw [offered]
        exact fun offer member => List.mem_append_left _ member
      refine ⟨book, ?_, ?_, ?_⟩
      · show (prepared manager).length = books.jobCounter + 1
        rw [recorded, List.length_append, watched.counted]
        rfl
      · show ∃ later, prepared manager = first ++ later
        rw [recorded]
        exact grown_more watched.grown _
      · intro reported distinct
        have contents := watched.contents reported fun offer member =>
          distinct offer (earlier offer member)
        have keysDistinct : keys.Nodup := by
          apply distinct keys
          show keys ∈ offers manager
          rw [offered]
          exact List.mem_append_right _ (List.mem_singleton_self keys)
        obtain ⟨pool, outcome⟩ :=
          TieringOperations.prepare_store_spec keysDistinct inner contents.custody.pool
        obtain ⟨_, samePins⟩ := prepare_store_pins keysDistinct contents.custody.pool inner
        exact contents_store contents fresh pool outcome samePins recorded rfl rfl

theorem signal_watched {lax : Prop} (watched : Watched fleet flushing first ledger books)
    (signal : Signal lax books after) : Watched fleet flushing first ledger after := by
  have book : BookInv ledger after := by
    obtain ⟨jobs, fences⟩ := signal_keeps signal watched.book.jobs watched.book.fences
    exact ⟨jobs, fences, signal_ledger signal watched.book.ledger⟩
  cases signal with
  | signaled _ _ _ call =>
      exact watched_quiet watched book (on_request_finished_same_tier call) rfl rfl rfl rfl

theorem admit_watched {reqId : ReqId} (watched : Watched fleet flushing first ledger books)
    (admits : Admit reqId books after) : Watched fleet flushing first ledger after := by
  have book : BookInv ledger after := by
    obtain ⟨jobs, fences⟩ := admit_keeps admits watched.book.jobs watched.book.fences
    exact ⟨jobs, fences, admit_ledger admits watched.book.ledger watched.book.jobs⟩
  cases admits with
  | opened _ _ =>
      exact watched_quiet watched book ⟨⟨rfl, rfl⟩, id, fun _ => rfl⟩ rfl rfl rfl rfl
  | passed _ call =>
      refine watched_quiet watched book ?_ rfl rfl rfl rfl
      exact same_tier_trans ⟨⟨rfl, rfl⟩, id, fun _ => rfl⟩ (on_request_finished_same_tier call)
  | finished _ _ _ =>
      exact watched_quiet watched book ⟨⟨rfl, rfl⟩, id, fun _ => rfl⟩ rfl rfl rfl rfl

/-- Workers that reported a job as often as there are workers have all finished it. -/
theorem reported_everywhere {numWorkers : Nat} {jobId : JobId}
    (numbered : fleet.done jobId ⊆ Finset.range numWorkers)
    (all : numWorkers ≤ (fleet.done jobId).card) : Everywhere fleet numWorkers jobId := by
  have same : fleet.done jobId = Finset.range numWorkers :=
    Finset.eq_of_subset_of_card_le numbered (by rwa [Finset.card_range])
  intro worker inside
  rw [same]
  exact Finset.mem_range.mpr inside

theorem report_watched {jobId : JobId} {count : Int}
    (watched : Watched fleet flushing first ledger books) (positive : 0 < count)
    (room : ledger.reported jobId + count ≤ books.numWorkers)
    (report : Report jobId count books after) :
    Watched fleet flushing first (ledger.note books.numWorkers (jobId, count)) after := by
  have book := report_book_inv watched.book positive room report
  have earlier : (∀ other, (ledger.note books.numWorkers (jobId, count)).reported other ≤
      (fleet.done other).card) → ∀ other, ledger.reported other ≤ (fleet.done other).card := by
    intro reported other
    have now := reported other
    rw [note_reported] at now
    split at now
    · rename_i same
      rw [same] at now ⊢
      omega
    · exact now
  cases report with
  | stale _ =>
      exact ⟨book, watched.counted, watched.grown, fun reported distinct =>
        watched.contents (earlier reported) distinct⟩
  | @partly job live found more =>
      refine ⟨book, watched.counted, watched.grown, fun reported distinct => ?_⟩
      have contents := watched.contents (earlier reported) distinct
      have lookedUp : ∀ other, (books.withJob jobId
          { job with pendingCount := job.pendingCount - count }).jobs.get? other =
          if other = jobId then some { job with pendingCount := job.pendingCount - count }
          else books.jobs.get? other := fun other => OrderedMap.get_set ..
      have custody : Custody (books.withJob jobId
          { job with pendingCount := job.pendingCount - count }) := by
        refine custody_of_same contents.custody contents.custody.pool rfl rfl rfl ?_ ?_
        · intro other
          rw [lookedUp]
          split
          · rename_i same
            rw [same, found]
            rfl
          · rfl
        · have moved := FiniteTotals.map_total_set books.jobs jobId
            { job with pendingCount := job.pendingCount - count }
            fun job => if job.isStore then 0 else (job.keys : Multiset OffloadKey)
          rw [found, Option.elim_some] at moved
          exact add_right_cancel moved
      apply contents_of_same contents custody rfl rfl rfl rfl rfl
      intro other
      rw [lookedUp]
      split
      · rename_i same
        rw [same, found]
        rfl
      · rfl
  | @fully job request manager fences live found closed tracked listed call unfenced =>
      have unrecorded : Unrecorded books.manager manager := by
        unfold completionCall at call
        split at call
        · exact (complete_store_recorded call).2
        · exact (complete_load_recorded call).2
      refine ⟨book, ?_, ?_, ?_⟩
      · show (prepared manager).length = books.jobCounter
        rw [unrecorded.prepared]
        exact watched.counted
      · show ∃ later, prepared manager = first ++ later
        rw [unrecorded.prepared]
        exact watched.grown
      · intro reported distinct
        have distinct : ∀ offer ∈ offers manager, offer.Nodup := distinct
        rw [unrecorded.offers] at distinct
        have contents := watched.contents (earlier reported) distinct
        -- the last report: the job waited for exactly these workers
        have waits := (watched.book.ledger.pending jobId job found).1
        have all := reported jobId
        rw [note_reported, if_pos rfl] at all
        have everywhere : Everywhere fleet books.numWorkers jobId :=
          reported_everywhere (contents.orders.numbered jobId) (by omega)
        unfold completionCall at call
        split at call
        · rename_i isStore
          have inner : (tier books.manager).completeStore job.keys true = .ok (tier manager) :=
            (complete_store_recorded call).1
          apply contents_store_done contents found isStore live everywhere inner
            unrecorded.prepared <;> rfl
        · rename_i isLoad
          have inner : (tier books.manager).completeLoad job.keys = .ok (tier manager) :=
            (complete_load_recorded call).1
          apply contents_load_done contents found (Bool.not_eq_true _ ▸ isLoad) everywhere inner
            unrecorded.prepared <;> rfl

/-- A reset adds the jobs in flight to those to be flushed. -/
theorem reset_watched (watched : Watched fleet flushing first ledger books)
    (known : ∀ jobId < books.jobCounter, jobId ∈ fleet.sent) (reset : Reset books after) :
    Watched fleet (flushing ∪ books.jobs.keys.toFinset) first (ledger.reset books.jobCounter)
      after := by
  have book : BookInv (ledger.reset books.jobCounter) after := by
    obtain ⟨jobs, fences⟩ := reset_keeps reset watched.book.jobs
    exact ⟨jobs, fences, reset_ledger reset watched.book.ledger⟩
  cases reset with
  | @reset _ finished manager _ _ calls call =>
      obtain ⟨told, first⟩ := finish_all_same_tier _ calls
      obtain ⟨inner, second⟩ := reset_cache_recorded call
      have cleared : (tier finished).resetCache = tier manager := Except.ok.inj inner
      have unrecorded := unrecorded_trans first second
      refine ⟨book, ?_, ?_, ?_⟩
      · show (prepared manager).length = books.jobCounter
        rw [unrecorded.prepared]
        exact watched.counted
      · show ∃ later, prepared manager = _ ++ later
        rw [unrecorded.prepared]
        exact watched.grown
      · intro reported distinct
        have distinct : ∀ offer ∈ offers manager, offer.Nodup := distinct
        rw [unrecorded.offers] at distinct
        apply contents_reset (watched.contents reported distinct) known _ unrecorded.prepared
        rw [← cleared, told]

theorem watched_send (watched : Watched fleet flushing first ledger books)
    {jobs flush : Finset JobId} (issued : ∀ jobId ∈ jobs, jobId < books.jobCounter)
    (flushes : flushing ⊆ fleet.flushed ∪ flush) :
    Watched (fleet.send jobs flush) (fleet.flushed ∪ flush) first ledger books where
  book := watched.book
  counted := watched.counted
  grown := watched.grown
  contents reported distinct := contents_send (watched.contents reported distinct) issued flushes

/-- A worker that goes on leaves the contents in order. -/
theorem watched_worker (watched : Watched fleet flushing first ledger books)
    (reported : ∀ jobId, ledger.reported jobId ≤ (fleet.done jobId).card)
    {event : WorkerEvent JobId Nat Nat OffloadKey}
    (allowed : Allowed (tableOf books.manager) fleet event)
    (inside : event.actor < books.numWorkers) :
    Watched (applyWorker fleet event) flushing first ledger books where
  book := watched.book
  counted := watched.counted
  grown := watched.grown
  contents _ distinct :=
    contents_worker (watched.contents reported distinct) watched.book.jobs.live allowed inside

end Steps

end KvOffload.LoadedContents
