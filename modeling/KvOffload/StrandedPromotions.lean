import KvOffload.CarriedPromotions
import KvOffload.ConnectorRuns
import KvOffload.ManagerRecords
import KvOffload.MirrorLookups

/-!
# Promotions between the steps

Between two steps the engine only goes on if someone has pending work. The runs of the
connector are followed over a tiering manager that remembers which reservations were made
by promotions, and with a flag that tells whether the last step is over. A reservation
always has a carrier; it is a running job as long as no lookup of a build queues a
promotion after the manager has submitted its queue.
-/

namespace KvOffload.StrandedPromotions

open KvOffload KvOffload.Base KvOffload.PolicyInterface KvOffload.CpuManager
open KvOffload.PendingBlocks KvOffload.Tiering KvOffload.CarriedPromotions
open KvOffload.ConnectorConfig KvOffload.ConnectorRequests KvOffload.ManagerInterface
open KvOffload.ManagerRecords
open KvOffload.ConnectorScheduler KvOffload.ConnectorStores KvOffload.ConnectorCompletion KvOffload.JobBooks
open KvOffload.ConnectorMoves KvOffload.ConnectorBuilds KvOffload.MirrorLookups
open KvOffload.ConnectorRuns

set_option autoImplicit false

/-- The numbers of the reservations that promotions made. -/
structure PromotionLog where
  promoted : Finset Nat := ∅

variable {P : Type}

/-- Only a lookup and the end of a step reserve for promotions, and they reserve for nothing
else. -/
instance : Recorder PromotionLog (TieringOffloadingManager P) where
  note log call before after :=
    match call with
    | .lookup _ _ _ | .onScheduleEnd _ =>
        ⟨log.promoted ∪ Finset.Ico before.ledger.next after.ledger.next⟩
    | _ => log

/-- A tiering manager with its promotion log. -/
abbrev PromotionWatch (P : Type) := Recording PromotionLog (TieringOffloadingManager P)

namespace PromotionWatch

variable (watch : PromotionWatch P)

def manager : TieringOffloadingManager P := watch.inner

def promoted : Finset Nat := watch.record.promoted

def plain (after : TieringOffloadingManager P) : PromotionWatch P := ⟨after, watch.record⟩

/-- All reservations since were made by promotions. -/
def promoting (after : TieringOffloadingManager P) : PromotionWatch P :=
  ⟨after, ⟨watch.promoted ∪ Finset.Ico watch.manager.ledger.next after.ledger.next⟩⟩

end PromotionWatch

/-- `has_pending_work` of the tiering manager; `tiersPending` are the tiers' own answers. -/
def hasPendingWork (manager : TieringOffloadingManager P) (tiersPending : Nat → Bool) : Bool :=
  !manager.jobs.entries.isEmpty ||
    (List.range manager.secondaryTiers.length).any tiersPending

/-- `has_pending_push_work` of the connector, which the engine asks. -/
def hasPendingPushWork (scheduler : OffloadingConnectorScheduler (PromotionWatch P))
    (tiersPending : Nat → Bool) : Bool :=
  !scheduler.jobs.entries.isEmpty || hasPendingWork scheduler.manager.manager tiersPending

section Watching

variable [CachePolicy P]

/-- The key waits under a reservation that a promotion made. -/
def HoldsPromotion (watch : PromotionWatch P) (key : OffloadKey) : Prop :=
  Pending watch.manager.primaryTier key ∧
    ∃ number ∈ watch.promoted, watch.manager.ledger.current.get? key = some number

instance (watch : PromotionWatch P) (key : OffloadKey) : Decidable (HoldsPromotion watch key) :=
  inferInstanceAs (Decidable (_ = _ ∧ ∃ number ∈ watch.promoted, _ = _))

variable [LawfulCachePolicy P]

structure WatchInv (watch : PromotionWatch P) : Prop where
  sound : Sound watch.manager
  given : ∀ number ∈ watch.promoted, number < watch.manager.ledger.next
  numbered : ∀ key, Pending watch.manager.primaryTier key → ∀ number,
    watch.manager.ledger.current.get? key = some number → number < watch.manager.ledger.next
  carried : ∀ key, HoldsPromotion watch key → Carried watch.manager key

variable {watch : PromotionWatch P} {after : TieringOffloadingManager P} {queues : Prop}

theorem numbered_of_carries {store : Prop} (inv : WatchInv watch)
    (carries : Carries store queues watch.manager after) :
    ∀ key, Pending after.primaryTier key → ∀ number,
      after.ledger.current.get? key = some number → number < after.ledger.next := by
  intro key waiting number holds
  rcases carries.keys inv.sound key waiting with ⟨before, same, _⟩ | ⟨⟨fresh, found, _, upper⟩, _⟩
  · rw [same] at holds
    exact (inv.numbered key before number holds).trans_le carries.next_le
  · rw [found] at holds
    cases holds
    exact upper

/-- A step that makes no promotion. -/
theorem plain_inv (inv : WatchInv watch) (carries : Carries True queues watch.manager after) :
    WatchInv (watch.plain after) := by
  refine ⟨carries.sound inv.sound, fun number member => ?_, numbered_of_carries inv carries, ?_⟩
  · exact (inv.given number member).trans_le carries.next_le
  · rintro key ⟨waiting, number, promoted, holds⟩
    rcases carries.keys inv.sound key waiting with ⟨before, same, kept⟩ | ⟨⟨fresh, found, lower, _⟩, _⟩
    · exact kept (inv.carried key ⟨before, number, promoted, same ▸ holds⟩)
    · have old := inv.given number promoted
      rw [show after.ledger.current.get? key = some number from holds] at found
      cases found
      exact absurd old (not_lt.mpr lower)

/-- A step whose reservations are all made by promotions. -/
theorem promoting_inv (inv : WatchInv watch)
    (carries : Carries False queues watch.manager after) :
    WatchInv (watch.promoting after) := by
  refine ⟨carries.sound inv.sound, fun number member => ?_, numbered_of_carries inv carries, ?_⟩
  · rcases Finset.mem_union.mp member with old | new
    · exact (inv.given number old).trans_le carries.next_le
    · exact (Finset.mem_Ico.mp new).2
  · rintro key ⟨waiting, number, promoted, holds⟩
    rcases carries.keys inv.sound key waiting with ⟨before, same, kept⟩ | ⟨_, carried⟩
    · have earlier : watch.manager.ledger.current.get? key = some number := same ▸ holds
      have below := inv.numbered key before number earlier
      rcases Finset.mem_union.mp promoted with old | new
      · exact kept (inv.carried key ⟨before, number, old, earlier⟩)
      · exact absurd below (not_lt.mpr (Finset.mem_Ico.mp new).1)
    · exact carried.resolve_left id

variable [BatchInserting P]

/-- A call of the connector to the watched manager: it keeps the invariant, and only some
calls touch the queue. -/
structure Watched (queues : Prop) (before after : PromotionWatch P) : Prop where
  inv : WatchInv before → WatchInv after
  queue : queues ∨
    after.manager.pendingLoadSubmissions = before.manager.pendingLoadSubmissions

omit [BatchInserting P] in
theorem watched_plain (carries : Carries True queues watch.manager after) :
    Watched queues watch (watch.plain after) :=
  ⟨fun inv => plain_inv inv carries, carries.queue⟩

omit [BatchInserting P] in
theorem watched_promoting (carries : Carries False queues watch.manager after) :
    Watched queues watch (watch.promoting after) :=
  ⟨fun inv => promoting_inv inv carries, carries.queue⟩

section Calls

variable {next : PromotionWatch P}

theorem lookup_watched {key : OffloadKey} {reqContext : ReqContext} {result : LookupResult}
    (call : OffloadingLookup.lookup watch key reqContext = .ok (result, next)) :
    Watched (startsPromotion watch.manager key reqContext = true) watch next := by
  obtain ⟨after, looked, rfl⟩ := lookup_told.mp call
  exact watched_promoting (lookup_carries looked)

omit [BatchInserting P] in
theorem touch_watched (keys : List OffloadKey) :
    Watched False watch (OffloadingLookup.touch watch keys) :=
  watched_plain (touch_carries watch.manager keys)

theorem prepare_store_watched {keys : List OffloadKey} {reqContext : ReqContext}
    {bypassThreshold : Bool} {output : Option PrepareStoreOutput}
    (call : OffloadingManager.prepareStore watch keys reqContext bypassThreshold =
      .ok (output, next)) : Watched False watch next := by
  obtain ⟨after, prepared, rfl⟩ := prepare_store_told.mp call
  exact watched_plain (prepare_store_carries prepared)

omit [BatchInserting P] in
theorem prepare_load_watched {keys : List OffloadKey} {blockIds : List Nat}
    (call : OffloadingManager.prepareLoad watch keys = .ok (blockIds, next)) :
    Watched False watch next := by
  obtain ⟨after, loaded, rfl⟩ := prepare_load_told.mp call
  exact watched_plain (prepare_load_carries loaded)

omit [BatchInserting P] in
theorem completion_watched {job : TransferJobStatus} {reqContext : ReqContext}
    (call : completionCall watch job reqContext = .ok next) : Watched False watch next := by
  unfold completionCall at call
  split at call
  · obtain ⟨after, completed, done⟩ := map_eq_ok.mp call
    cases done
    exact watched_plain (complete_store_carries completed)
  · obtain ⟨after, completed, done⟩ := map_eq_ok.mp call
    cases done
    exact watched_plain (complete_load_carries completed)

omit [BatchInserting P] in
theorem new_request_watched (reqContext : ReqContext) :
    Watched False watch (OffloadingManager.onNewRequest watch reqContext).2 :=
  watched_plain (new_request_carries watch.manager reqContext none)

omit [BatchInserting P] in
theorem request_finished_watched {reqContext : ReqContext}
    (call : OffloadingManager.onRequestFinished watch reqContext = .ok next) :
    Watched False watch next := by
  obtain ⟨after, finished, done⟩ := map_eq_ok.mp call
  cases done
  exact watched_plain (request_finished_carries finished)

theorem schedule_end_watched {context : ScheduleEndContext}
    (call : OffloadingManager.onScheduleEnd watch context = .ok next) :
    Watched True watch next := by
  obtain ⟨after, ended, done⟩ := map_eq_ok.mp call
  cases done
  exact watched_promoting (schedule_end_carries ended)

omit [LawfulCachePolicy P] [BatchInserting P] in
/-- The queue is submitted at the end of the manager's step. -/
theorem schedule_end_queue {context : ScheduleEndContext}
    (call : OffloadingManager.onScheduleEnd watch context = .ok next) :
    next.manager.pendingLoadSubmissions = OrderedMap.empty := by
  obtain ⟨after, ended, done⟩ := map_eq_ok.mp call
  cases done
  obtain ⟨polled, _, ended⟩ := bind_eq_ok.mp ended
  obtain ⟨served, _, ended⟩ := bind_eq_ok.mp ended
  cases ended
  have called : ∀ manager : TieringOffloadingManager P,
      (manager.callAll (.onScheduleEnd context)).pendingLoadSubmissions =
        manager.pendingLoadSubmissions := by
    intro manager
    unfold TieringOffloadingManager.callAll
    induction List.range manager.secondaryTiers.length generalizing manager with
    | nil => rfl
    | cons tierIdx rest ih => exact ih _
  exact called _

omit [BatchInserting P] in
theorem drain_watched :
    Watched False watch (OffloadingManager.drainFlushJobIds watch).2 :=
  watched_plain (drain_carries watch.manager)

omit [BatchInserting P] in
theorem finish_all_watched (reqContexts : List ReqContext) {watch : PromotionWatch P}
    (call : finishAll watch reqContexts = .ok next) : Watched False watch next := by
  induction reqContexts generalizing watch with
  | nil =>
      cases call
      exact ⟨id, .inr rfl⟩
  | cons reqContext rest ih =>
      obtain ⟨middle, first, later⟩ := bind_eq_ok.mp call
      have firstWatched := request_finished_watched first
      have laterWatched := ih later
      exact ⟨laterWatched.inv ∘ firstWatched.inv, .inr
        ((laterWatched.queue.resolve_left id).trans (firstWatched.queue.resolve_left id))⟩

omit [BatchInserting P] in
theorem reset_cache_watched (call : OffloadingManager.resetCache watch = .ok next) :
    Watched True watch next := by
  obtain ⟨after, reset, done⟩ := map_eq_ok.mp call
  cases done
  exact watched_plain (reset_cache_carries reset)

omit [LawfulCachePolicy P] [BatchInserting P] in
theorem reset_cache_queue (call : OffloadingManager.resetCache watch = .ok next) :
    next.manager.pendingLoadSubmissions = OrderedMap.empty := by
  obtain ⟨after, reset, done⟩ := map_eq_ok.mp call
  cases done
  obtain ⟨polled, _, reset⟩ := bind_eq_ok.mp reset
  obtain ⟨_, _, reset⟩ := bind_eq_ok.mp reset
  cases reset
  exact (TieringOperations.reset_requests_core _).pending

end Calls

section Moves

variable {before after : Desk (PromotionWatch P)}

theorem move_inv {lax : Prop} (move : Move lax before after) (inv : WatchInv before.manager) :
    WatchInv after.manager := by
  cases move with
  | looked _ _ call => exact (lookup_watched call).inv inv
  | touched keys => exact (touch_watched keys).inv inv
  | loadIssued _ _ _ call => exact (prepare_load_watched call).inv inv
  | storeDeclined _ _ call _ => exact (prepare_store_watched call).inv inv
  | storeIssued _ _ call _ => exact (prepare_store_watched call).inv inv
  | scheduleEnded call => exact (schedule_end_watched call).inv inv
  | drained => exact drain_watched.inv inv

omit [BatchInserting P] in
theorem signal_inv {lax : Prop} (signal : Signal lax before after)
    (inv : WatchInv before.manager) : WatchInv after.manager := by
  cases signal with
  | signaled _ _ _ call => exact (request_finished_watched call).inv inv

omit [BatchInserting P] in
theorem admit_watched {reqId : ReqId} (admits : Admit reqId before after) :
    Watched False before.manager after.manager := by
  cases admits with
  | opened _ _ => exact new_request_watched _
  | @passed _ reqContext _ _ call =>
      have opened := @new_request_watched _ _ _ before.manager reqContext
      have finished := request_finished_watched call
      exact ⟨finished.inv ∘ opened.inv, .inr
        ((finished.queue.resolve_left id).trans (opened.queue.resolve_left id))⟩
  | finished _ _ _ => exact ⟨id, .inr rfl⟩

omit [BatchInserting P] in
theorem report_watched {jobId : JobId} {count : Int} (report : Report jobId count before after) :
    Watched False before.manager after.manager := by
  cases report with
  | stale _ => exact ⟨id, .inr rfl⟩
  | partly _ _ _ => exact ⟨id, .inr rfl⟩
  | fully _ _ _ _ _ call _ => exact completion_watched call

omit [BatchInserting P] in
theorem reset_watched (reset : Reset before after) :
    (WatchInv before.manager → WatchInv after.manager) ∧
      after.manager.manager.pendingLoadSubmissions = OrderedMap.empty := by
  cases reset with
  | reset _ _ calls call =>
      exact ⟨fun inv => (reset_cache_watched call).inv ((finish_all_watched _ calls).inv inv),
        reset_cache_queue call⟩

end Moves

end Watching

/-- A run of the connector; `between` holds from the end of a step to the first call of the
next one. -/
structure WatchRun (P : Type) where
  run : RunState (PromotionWatch P)
  between : Bool := true

namespace WatchRun

def start (config : SchedulerOffloadConfig) (settings : ConnectorSettings)
    (mambaAlignSize : Option Nat) (manager : TieringOffloadingManager P)
    (clock : StaleHitLadder.Clock) : WatchRun P where
  run := RunState.start config settings mambaAlignSize ⟨manager, {}⟩ clock

/-- Admissions open a step and the build closes it. -/
def betweenAfter (between : Bool) : ConnectorEvent → Bool
  | .getNumNewMatchedTokens _ _ => false
  | .updateStateAfterAlloc _ _ _ => false
  | .buildConnectorMeta _ => true
  | _ => between

variable [CachePolicy P]

def apply (state : WatchRun P) (event : ConnectorEvent) : Except PyError (WatchRun P) := do
  let run ← state.run.apply event
  .ok ⟨run, betweenAfter state.between event⟩

def Permitted (state : WatchRun P) (event : ConnectorEvent) : Prop :=
  state.run.Permitted event

/-- No lookup that the build of a step makes reserves a block. -/
def BuildsQuietly (state : WatchRun P) : ConnectorEvent → Prop
  | .buildConnectorMeta output =>
      ∀ look ∈ mirrorLookups state.run.scheduler output,
        startsPromotion look.manager.manager look.key look.reqContext = false
  | _ => True

instance (state : WatchRun P) (event : ConnectorEvent) : Decidable (state.Permitted event) :=
  inferInstanceAs (Decidable (state.run.Permitted event))

instance (state : WatchRun P) (event : ConnectorEvent) : Decidable (state.BuildsQuietly event) :=
  match event with
  | .buildConnectorMeta _ => inferInstanceAs (Decidable (∀ look ∈ _, _ = _))
  | .newRequest _ | .requestChanged _ | .getNumNewMatchedTokens _ _
  | .updateStateAfterAlloc _ _ _ | .updateConnectorOutput _ | .requestFinished _
  | .resetCache => .isTrue trivial

def watch (state : WatchRun P) : PromotionWatch P := state.run.scheduler.manager

/-- Between two steps, a key that holds a promotion's reservation means pending work. -/
def NoneStranded (state : WatchRun P) : Prop :=
  state.between = true → ∀ key, HoldsPromotion state.watch key →
    ∀ tiersPending, hasPendingWork state.watch.manager tiersPending = true

end WatchRun

section Runs

variable [CachePolicy P] [LawfulCachePolicy P] [BatchInserting P]

theorem reached_watch_inv {config : SchedulerOffloadConfig} {settings : ConnectorSettings}
    {mambaAlignSize : Option Nat} {manager : TieringOffloadingManager P}
    {clock : StaleHitLadder.Clock} {state : RunState (PromotionWatch P)}
    (initial : WatchInv ⟨manager, {}⟩)
    (reaches : EventRuns.Reaches RunState.apply RunState.Permitted
      (RunState.start config settings mambaAlignSize ⟨manager, {}⟩ clock) state) :
    WatchInv state.scheduler.manager := by
  have inv : WatchInv (desk state.scheduler).manager := by
    apply @run_rule (PromotionWatch P) _ True RunState.Permitted
      (fun _ books => WatchInv books.manager)
      (RunState.start config settings mambaAlignSize ⟨manager, {}⟩ clock) state
      _ _ _ _ _ _ _ (by exact initial) reaches
    · exact fun state event isPermitted => ⟨isPermitted, served_only_lax state event⟩
    · exact fun _ before after inv move => move_inv move inv
    · exact fun _ before after inv signal => signal_inv signal inv
    · exact fun _ before after reqId inv admits => (admit_watched admits).inv inv
    · exact fun _ before after jobId count inv _ _ _ report => (report_watched report).inv inv
    · exact fun _ before after inv reset => (reset_watched reset).1 inv
    · exact fun reqId request found => by cases found
  exact inv

omit [BatchInserting P] in
theorem output_queue (completedJobs : List (JobId × Int))
    {scheduler after : OffloadingConnectorScheduler (PromotionWatch P)}
    (updated : updateConnectorOutput scheduler completedJobs = .ok after) :
    after.manager.manager.pendingLoadSubmissions =
      scheduler.manager.manager.pendingLoadSubmissions := by
  induction completedJobs generalizing scheduler with
  | nil =>
      cases updated
      rfl
  | cons entry rest ih =>
      obtain ⟨middle, reported, updated⟩ := bind_eq_ok.mp updated
      have watched := report_watched (report_job_report reported).2
      exact (ih updated).trans (watched.queue.resolve_left id)

/-- The build of a step leaves nothing queued. -/
theorem build_queue {scheduler after : OffloadingConnectorScheduler (PromotionWatch P)}
    {output : SchedulerOutput} {connectorMeta : OffloadingConnectorMetadata}
    (quiet : ∀ look ∈ mirrorLookups scheduler output,
      startsPromotion look.manager.manager look.key look.reqContext = false)
    (built : buildConnectorMeta scheduler output = .ok (connectorMeta, after)) :
    after.manager.manager.pendingLoadSubmissions = OrderedMap.empty := by
  apply @build_rule (PromotionWatch P) _
    (fun watch => watch.manager.pendingLoadSubmissions = OrderedMap.empty)
    scheduler after output connectorMeta _ _ _ built
  · exact fun watch context next call => schedule_end_queue call
  · exact fun watch empty => (drain_watched.queue.resolve_left id).trans empty
  · constructor
    · intro look member empty result next call
      have watched := (lookup_watched call).queue
      rw [quiet look member] at watched
      exact (watched.resolve_left Bool.false_ne_true).trans empty
    · exact fun watch keys empty => ((touch_watched keys).queue.resolve_left id).trans empty
    · exact fun _ _ _ _ _ _ empty call =>
        ((prepare_store_watched call).queue.resolve_left id).trans empty
    · exact fun _ _ _ empty call =>
        ((request_finished_watched call).queue.resolve_left id).trans empty

/-- Between two steps nothing is queued. -/
theorem event_keeps_queue {before after : WatchRun P} {event : ConnectorEvent}
    (inv : before.between = true →
      before.watch.manager.pendingLoadSubmissions = OrderedMap.empty)
    (permitted : before.Permitted event ∧ before.BuildsQuietly event)
    (applied : before.apply event = .ok after) :
    after.between = true → after.watch.manager.pendingLoadSubmissions = OrderedMap.empty := by
  obtain ⟨run, ran, done⟩ := bind_eq_ok.mp applied
  cases done
  intro between
  show run.scheduler.manager.manager.pendingLoadSubmissions = OrderedMap.empty
  cases event with
  | newRequest req =>
      cases ran
      have opened := @new_request_watched _ _ _ before.watch (createReqContext req)
      exact (opened.queue.resolve_left id).trans (inv between)
  | requestChanged req =>
      cases ran
      exact inv between
  | getNumNewMatchedTokens reqId numComputedTokens => cases between
  | updateStateAfterAlloc reqId blocks numExternalTokens => cases between
  | buildConnectorMeta output =>
      obtain ⟨⟨connectorMeta, scheduler⟩, built, ran⟩ := bind_eq_ok.mp ran
      cases ran
      exact build_queue permitted.2 built
  | updateConnectorOutput completedJobs =>
      obtain ⟨scheduler, called, ran⟩ := bind_eq_ok.mp ran
      cases ran
      exact (output_queue completedJobs called).trans (inv between)
  | requestFinished req =>
      obtain ⟨scheduler, called, ran⟩ := bind_eq_ok.mp ran
      cases ran
      have watched := admit_watched (request_finished_admitted permitted.1 called)
      exact (watched.queue.resolve_left id).trans (inv between)
  | resetCache =>
      obtain ⟨scheduler, called, ran⟩ := bind_eq_ok.mp ran
      cases ran
      exact (reset_watched (reset_cache_reset called)).2

theorem none_stranded_of_lawful {policy : P} (policyInv : LawfulCachePolicy.Inv policy)
    (vacant : ∀ key, CachePolicy.get policy key = none) {config : SchedulerOffloadConfig}
    {settings : ConnectorSettings} {mambaAlignSize : Option Nat}
    {primaryParams : CpuManagerParams} {params : TieringParams} {tiers : List TierInfo}
    {answers : Nat → TierAnswer} {clock : StaleHitLadder.Clock} {state : WatchRun P}
    (reaches : EventRuns.Reaches WatchRun.apply
      (fun state event => state.Permitted event ∧ state.BuildsQuietly event)
      (WatchRun.start config settings mambaAlignSize
        (.new params (.new primaryParams policy) tiers answers) clock) state) :
    state.NoneStranded := by
  have noneWaits : ∀ key, ¬Pending (CPUOffloadingManager.new primaryParams policy) key := by
    intro key waiting
    obtain ⟨block, found, _⟩ := (pending_iff key).mp waiting
    have absent : (CPUOffloadingManager.new primaryParams policy).get key = none := vacant key
    rw [absent] at found
    cases found
  have initial : WatchInv
      (⟨.new params (.new primaryParams policy) tiers answers, {}⟩ : PromotionWatch P) := by
    refine ⟨⟨policyInv, ?_⟩, ?_, fun key waiting => absurd waiting (noneWaits key),
      fun key holds => absurd holds.1 (noneWaits key)⟩
    · intro jobId job found
      cases found
    · intro number member
      cases member
  have inner : EventRuns.Reaches RunState.apply RunState.Permitted
      (RunState.start config settings mambaAlignSize
        ⟨.new params (.new primaryParams policy) tiers answers, {}⟩ clock)
      state.run := by
    apply EventRuns.reaches_project WatchRun.run _ reaches
    intro before event after permitted applied
    obtain ⟨run, ran, done⟩ := bind_eq_ok.mp applied
    cases done
    exact ⟨event, permitted.1, ran⟩
  have inv : WatchInv state.watch := reached_watch_inv initial inner
  have queue : state.between = true →
      state.watch.manager.pendingLoadSubmissions = OrderedMap.empty := by
    apply EventRuns.reaches_invariant _ _ reaches
    · exact fun _ _ _ inv permitted applied => event_keeps_queue inv permitted applied
    · exact fun _ => rfl
  intro between key holds tiersPending
  rcases inv.carried key holds with ⟨jobId, job, running, _⟩ | ⟨tierIdx, _, _, _, queued, _⟩
  · unfold hasPendingWork
    have listed := (state.watch.manager.jobs.get_eq_some_iff jobId job).mp running
    cases entries : state.watch.manager.jobs.entries with
    | nil =>
        rw [entries] at listed
        cases listed
    | cons _ _ => rfl
  · rw [queue between] at queued
    cases queued

end Runs

/-- In every run whose builds queue no promotion, no promotion is stranded. -/
def NeverStranded [CachePolicy P] (policy : P) : Prop :=
  ∀ config settings mambaAlignSize primaryParams params tiers answers clock
    (state : WatchRun P),
    EventRuns.Reaches WatchRun.apply
      (fun state event => state.Permitted event ∧ state.BuildsQuietly event)
      (WatchRun.start config settings mambaAlignSize
        (.new params (.new primaryParams policy) tiers answers) clock) state →
    state.NoneStranded

theorem lru_and_arc_never_stranded (cacheCapacity : Nat)
    (rounding : FloatRounding.Rounding) :
    NeverStranded (LruPolicy.LRUCachePolicy.new cacheCapacity) ∧
      NeverStranded (ArcPolicy.ARCCachePolicy.new cacheCapacity rounding) := by
  constructor
  · intro _ _ _ _ _ _ _ _ state reaches
    have policyInv : LawfulCachePolicy.Inv (LruPolicy.LRUCachePolicy.new cacheCapacity) := by
      intro key
      simp [LruPolicy.LRUCachePolicy.new]
    exact none_stranded_of_lawful policyInv (fun _ => rfl) reaches
  · intro _ _ _ _ _ _ _ _ state reaches
    exact none_stranded_of_lawful (fun _ => Or.inl rfl) (fun _ => rfl) reaches

def lineGroups : List OffloadingGroupConfig := [⟨2, 0⟩]

/-- One full-attention group with blocks of two tokens. -/
def lineSpec : OffloadingSpec where
  groups := lineGroups
  kvCacheGroups := [⟨.fullAttention, false⟩]
  blocksPerChunk := 1
  tokensPerHash := 2
  worldSize := 1
  decodeContextParallelSize := 1
  offloadPromptOnly := false
  useEagle := false
  ordered := by decide
  bounded := by decide
  blocks_pos := Nat.one_pos
  hash_pos := Nat.two_pos
  hash_fits := by decide

/-- The tier finishes its stores and has the block of the first lookup that misses. -/
def lineAnswers (answered : Nat) : TierAnswer :=
  if answered = 16 then { finished := [{ jobId := 1, success := true }] }
  else if answered = 24 then { finished := [{ jobId := 3, success := true }] }
  else if answered = 27 then { lookup := .hit }
  else {}

def lineStart (answers : Nat → TierAnswer) : WatchRun LruPolicy.LRUCachePolicy :=
  WatchRun.start (.fromSpec lineSpec) {} none
    (.new {} (.new { numBlocks := 1 } (.new 1)) [{}] answers) ⟨fun _ => 0, 0⟩

def lineRequest (numComputedTokens : Nat) : Request :=
  ⟨0, 4, 4, numComputedTokens, [[0], [1]], .unfinished, false, .all, none⟩

def promotingEvents : List ConnectorEvent :=
  [.newRequest (lineRequest 0), .getNumNewMatchedTokens 0 0, .buildConnectorMeta {}]

theorem promotion_pending : ∃ state : WatchRun LruPolicy.LRUCachePolicy,
    state.between = true ∧ HoldsPromotion state.watch ⟨[0], 0⟩ ∧
      hasPendingWork state.watch.manager (fun _ => false) = true := by
  have ran : (EventRuns.replay WatchRun.apply
      (fun state event => state.Permitted event ∧ state.BuildsQuietly event)
      (lineStart fun _ => { lookup := .hit }) promotingEvents).map (fun state =>
        (state.between, decide (HoldsPromotion state.watch ⟨[0], 0⟩))) =
      some (true, true) := by decide +kernel
  obtain ⟨state, reaches, seen⟩ := EventRuns.exists_of_replay ran
  simp only [Prod.mk.injEq, decide_eq_true_eq] at seen
  exact ⟨state, seen.1, seen.2,
    (lru_and_arc_never_stranded 1 .exact).1 _ _ _ _ _ _ _ _ state reaches seen.1 _ seen.2 _⟩

/-- A request stores a block, which the store of another request evicts, and the first one
is scheduled again. -/
def lineEvents : List ConnectorEvent :=
  [.newRequest (lineRequest 0),
    .buildConnectorMeta
      { reqData := [⟨0, [[5]], false⟩]
        newReqIds := [0]
        numScheduledTokens := OrderedMap.empty.set 0 2 },
    .updateConnectorOutput [(0, 1)],
    .newRequest ⟨1, 3, 3, 0, [[2]], .unfinished, false, .all, none⟩,
    .buildConnectorMeta
      { reqData := [⟨1, [[6]], false⟩]
        newReqIds := [1]
        numScheduledTokens := OrderedMap.empty.set 1 3 },
    .updateConnectorOutput [(1, 1)],
    .requestChanged (lineRequest 2),
    .buildConnectorMeta
      { reqData := [⟨0, [], false⟩]
        numScheduledTokens := OrderedMap.empty.set 0 1 }]

/-- Nobody has pending work for the promotion that the last build queued. -/
theorem promotion_stranded : ∃ state,
    EventRuns.Reaches WatchRun.apply WatchRun.Permitted (lineStart lineAnswers) state ∧
      state.between = true ∧ HoldsPromotion state.watch ⟨[0], 0⟩ ∧
      hasPendingWork state.watch.manager (fun _ => false) = false ∧
      hasPendingPushWork state.run.scheduler (fun _ => false) = false := by
  have ran : (EventRuns.replay WatchRun.apply WatchRun.Permitted (lineStart lineAnswers)
      lineEvents).map (fun state => (state.between,
        decide (HoldsPromotion state.watch ⟨[0], 0⟩),
        hasPendingWork state.watch.manager (fun _ => false),
        hasPendingPushWork state.run.scheduler (fun _ => false))) =
      some (true, true, false, false) := by decide +kernel
  obtain ⟨state, reaches, seen⟩ := EventRuns.exists_of_replay ran
  simp only [Prod.mk.injEq, decide_eq_true_eq] at seen
  exact ⟨state, reaches, seen⟩

end KvOffload.StrandedPromotions
