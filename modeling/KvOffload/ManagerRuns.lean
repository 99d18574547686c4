import KvOffload.ConnectorRuns

/-!
# The manager in the runs of the connector

A run reaches its manager only through the calls of the interface. What every call keeps
therefore holds of the manager in every state of a run.
-/

namespace KvOffload.ManagerRuns

open KvOffload KvOffload.Base KvOffload.ConnectorConfig KvOffload.ConnectorRequests
open KvOffload.ManagerInterface KvOffload.ConnectorScheduler KvOffload.JobBooks
open KvOffload.ConnectorMoves KvOffload.ConnectorRuns

set_option autoImplicit false

variable {M : Type} [OffloadingManager M]

structure ManagerKeeps (Inv : M → Prop) : Prop where
  lookup : ∀ {manager after : M} {key : OffloadKey} {reqContext : ReqContext}
    {result : LookupResult}, Inv manager →
    OffloadingLookup.lookup manager key reqContext = .ok (result, after) → Inv after
  touch : ∀ {manager : M} (keys : List OffloadKey), Inv manager →
    Inv (OffloadingLookup.touch manager keys)
  prepareStore : ∀ {manager after : M} {keys : List OffloadKey} {reqContext : ReqContext}
    {bypassThreshold : Bool} {output : Option PrepareStoreOutput}, Inv manager →
    OffloadingManager.prepareStore manager keys reqContext bypassThreshold =
      .ok (output, after) → Inv after
  completeStore : ∀ {manager after : M} {keys : List OffloadKey} {reqContext : ReqContext},
    Inv manager → OffloadingManager.completeStore manager keys reqContext = .ok after → Inv after
  prepareLoad : ∀ {manager after : M} {keys : List OffloadKey} {blockIds : List Nat},
    Inv manager → OffloadingManager.prepareLoad manager keys = .ok (blockIds, after) → Inv after
  completeLoad : ∀ {manager after : M} {keys : List OffloadKey}, Inv manager →
    OffloadingManager.completeLoad manager keys = .ok after → Inv after
  onNewRequest : ∀ {manager : M} (reqContext : ReqContext), Inv manager →
    Inv (OffloadingManager.onNewRequest manager reqContext).2
  onRequestFinished : ∀ {manager after : M} {reqContext : ReqContext}, Inv manager →
    OffloadingManager.onRequestFinished manager reqContext = .ok after → Inv after
  onScheduleEnd : ∀ {manager after : M} {context : ScheduleEndContext}, Inv manager →
    OffloadingManager.onScheduleEnd manager context = .ok after → Inv after
  drainFlushJobIds : ∀ {manager : M}, Inv manager →
    Inv (OffloadingManager.drainFlushJobIds manager).2
  resetCache : ∀ {manager after : M}, Inv manager →
    OffloadingManager.resetCache manager = .ok after → Inv after

variable {Inv : M → Prop}

section Steps

variable (keeps : ManagerKeeps Inv) {before after : Desk M}

include keeps

theorem finish_all_keeps (reqContexts : List ReqContext) {manager last : M}
    (inv : Inv manager) (finished : finishAll manager reqContexts = .ok last) : Inv last := by
  induction reqContexts generalizing manager with
  | nil =>
      cases finished
      exact inv
  | cons reqContext rest ih =>
      obtain ⟨middle, first, later⟩ := bind_eq_ok.mp finished
      exact ih (keeps.onRequestFinished inv first) later

theorem completion_keeps {manager last : M} {job : TransferJobStatus} {reqContext : ReqContext}
    (inv : Inv manager) (call : completionCall manager job reqContext = .ok last) : Inv last := by
  unfold completionCall at call
  split at call
  · exact keeps.completeStore inv call
  · exact keeps.completeLoad inv call

theorem move_keeps {lax : Prop} (inv : Inv before.manager) (move : Move lax before after) :
    Inv after.manager := by
  cases move with
  | looked _ _ call => exact keeps.lookup inv call
  | touched keys => exact keeps.touch keys inv
  | loadIssued _ _ _ call => exact keeps.prepareLoad inv call
  | storeDeclined _ _ call _ => exact keeps.prepareStore inv call
  | storeIssued _ _ call _ => exact keeps.prepareStore inv call
  | scheduleEnded call => exact keeps.onScheduleEnd inv call
  | drained => exact keeps.drainFlushJobIds inv

theorem admit_keeps {reqId : ReqId} (inv : Inv before.manager)
    (admits : Admit reqId before after) : Inv after.manager := by
  cases admits with
  | opened _ _ => exact keeps.onNewRequest _ inv
  | @passed _ reqContext _ _ call =>
      exact keeps.onRequestFinished (keeps.onNewRequest reqContext inv) call
  | finished _ _ _ => exact inv

theorem report_keeps {jobId : JobId} {count : Int} (inv : Inv before.manager)
    (report : Report jobId count before after) : Inv after.manager := by
  cases report with
  | stale _ => exact inv
  | partly _ _ _ => exact inv
  | fully _ _ _ _ _ call _ => exact completion_keeps keeps inv call

theorem reset_keeps (inv : Inv before.manager) (reset : Reset before after) :
    Inv after.manager := by
  cases reset with
  | reset _ _ calls call => exact keeps.resetCache (finish_all_keeps keeps _ inv calls) call

theorem reached_keeps {config : SchedulerOffloadConfig} {settings : ConnectorSettings}
    {mambaAlignSize : Option Nat} {manager : M} {clock : StaleHitLadder.Clock}
    {state : RunState M} (initial : Inv manager)
    (reaches : EventRuns.Reaches RunState.apply RunState.Permitted
      (RunState.start config settings mambaAlignSize manager clock) state) :
    Inv state.scheduler.manager := by
  have inv : Inv (desk state.scheduler).manager := by
    apply @run_rule M _ True RunState.Permitted (fun _ books => Inv books.manager)
      (RunState.start config settings mambaAlignSize manager clock) state
      _ _ _ _ _ _ _ (by exact initial) reaches
    · exact fun state event permitted => ⟨permitted, served_only_lax state event⟩
    · exact fun _ before after inv move => move_keeps keeps inv move
    · intro _ before after inv signal
      cases signal with
      | signaled _ _ _ call => exact keeps.onRequestFinished inv call
    · exact fun _ before after reqId inv admits => admit_keeps keeps inv admits
    · exact fun _ before after jobId count inv _ _ _ report => report_keeps keeps inv report
    · exact fun _ before after inv reset => reset_keeps keeps inv reset
    · exact fun reqId request found => by cases found
  exact inv

end Steps

end KvOffload.ManagerRuns
