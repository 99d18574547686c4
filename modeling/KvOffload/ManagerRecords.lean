import KvOffload.ManagerInterface

/-!
# Managers with a record

A manager with a record beside it. Every call goes to the manager as it is, and the record
is told of the calls that return. No operation reads the record.
-/

namespace KvOffload.ManagerRecords

open KvOffload KvOffload.Base KvOffload.PolicyInterface KvOffload.CpuManager
open KvOffload.ManagerInterface

set_option autoImplicit false

/-- A call that returned, with its answer where there is one. -/
inductive ManagerCall where
  | lookup (key : OffloadKey) (reqContext : ReqContext) (result : LookupResult)
  | touch (keys : List OffloadKey)
  | prepareStore (keys : List OffloadKey) (reqContext : ReqContext)
      (output : Option PrepareStoreOutput)
  | completeStore (keys : List OffloadKey) (reqContext : ReqContext)
  | prepareLoad (keys : List OffloadKey) (blockIds : List Nat)
  | completeLoad (keys : List OffloadKey)
  | onNewRequest (reqContext : ReqContext)
  | onRequestFinished (reqContext : ReqContext)
  | onScheduleEnd (context : ScheduleEndContext)
  | drainFlushJobIds
  | resetCache

/-- The record after a call; `note` is shown the manager before and after it. -/
class Recorder (R M : Type) where
  note : R → ManagerCall → M → M → R

structure Recording (R M : Type) where
  inner : M
  record : R

variable {R M : Type} [Recorder R M]

/-- The record hears of a call that left the manager as `after`. -/
def Recording.told (manager : Recording R M) (call : ManagerCall) (after : M) :
    Recording R M :=
  ⟨after, Recorder.note manager.record call manager.inner after⟩

instance [OffloadingManager M] : OffloadingManager (Recording R M) where
  lookup manager key reqContext :=
    (OffloadingLookup.lookup manager.inner key reqContext).map fun result =>
      (result.1, manager.told (.lookup key reqContext result.1) result.2)
  touch manager keys :=
    manager.told (.touch keys) (OffloadingLookup.touch manager.inner keys)
  prepareStore manager keys reqContext bypassThreshold :=
    (OffloadingManager.prepareStore manager.inner keys reqContext bypassThreshold).map
      fun result => (result.1, manager.told (.prepareStore keys reqContext result.1) result.2)
  completeStore manager keys reqContext :=
    (OffloadingManager.completeStore manager.inner keys reqContext).map
      (manager.told (.completeStore keys reqContext))
  prepareLoad manager keys :=
    (OffloadingManager.prepareLoad manager.inner keys).map fun result =>
      (result.1, manager.told (.prepareLoad keys result.1) result.2)
  completeLoad manager keys :=
    (OffloadingManager.completeLoad manager.inner keys).map (manager.told (.completeLoad keys))
  onNewRequest manager reqContext :=
    ((OffloadingManager.onNewRequest manager.inner reqContext).1,
      manager.told (.onNewRequest reqContext)
        (OffloadingManager.onNewRequest manager.inner reqContext).2)
  onRequestFinished manager reqContext :=
    (OffloadingManager.onRequestFinished manager.inner reqContext).map
      (manager.told (.onRequestFinished reqContext))
  onScheduleEnd manager context :=
    (OffloadingManager.onScheduleEnd manager.inner context).map
      (manager.told (.onScheduleEnd context))
  drainFlushJobIds manager :=
    ((OffloadingManager.drainFlushJobIds manager.inner).1,
      manager.told .drainFlushJobIds (OffloadingManager.drainFlushJobIds manager.inner).2)
  resetCache manager :=
    (OffloadingManager.resetCache manager.inner).map (manager.told .resetCache)

section Calls

variable [OffloadingManager M] {manager after : Recording R M}

theorem lookup_told {key : OffloadKey} {reqContext : ReqContext} {result : LookupResult} :
    OffloadingLookup.lookup manager key reqContext = .ok (result, after) ↔
      ∃ inner, OffloadingLookup.lookup manager.inner key reqContext = .ok (result, inner) ∧
        after = manager.told (.lookup key reqContext result) inner := by
  refine map_eq_ok.trans ⟨?_, ?_⟩
  · rintro ⟨⟨answer, inner⟩, call, same⟩
    cases same
    exact ⟨inner, call, rfl⟩
  · rintro ⟨inner, call, rfl⟩
    exact ⟨(result, inner), call, rfl⟩

theorem prepare_store_told {keys : List OffloadKey} {reqContext : ReqContext}
    {bypassThreshold : Bool} {output : Option PrepareStoreOutput} :
    OffloadingManager.prepareStore manager keys reqContext bypassThreshold =
        .ok (output, after) ↔
      ∃ inner, OffloadingManager.prepareStore manager.inner keys reqContext bypassThreshold =
          .ok (output, inner) ∧
        after = manager.told (.prepareStore keys reqContext output) inner := by
  refine map_eq_ok.trans ⟨?_, ?_⟩
  · rintro ⟨⟨answer, inner⟩, call, same⟩
    cases same
    exact ⟨inner, call, rfl⟩
  · rintro ⟨inner, call, rfl⟩
    exact ⟨(output, inner), call, rfl⟩

theorem prepare_load_told {keys : List OffloadKey} {blockIds : List Nat} :
    OffloadingManager.prepareLoad manager keys = .ok (blockIds, after) ↔
      ∃ inner, OffloadingManager.prepareLoad manager.inner keys = .ok (blockIds, inner) ∧
        after = manager.told (.prepareLoad keys blockIds) inner := by
  refine map_eq_ok.trans ⟨?_, ?_⟩
  · rintro ⟨⟨answer, inner⟩, call, same⟩
    cases same
    exact ⟨inner, call, rfl⟩
  · rintro ⟨inner, call, rfl⟩
    exact ⟨(blockIds, inner), call, rfl⟩

end Calls

end KvOffload.ManagerRecords
