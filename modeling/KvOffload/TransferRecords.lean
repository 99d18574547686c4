import KvOffload.GatedCopies
import KvOffload.JobLedger
import KvOffload.TransferBooks

/-!
# Records of the prepared transfers

A manager that records the keys and the CPU blocks of each transfer it prepares. Every
call of a CPU manager is described by the blocks that its keys are bound to before and after.
-/

namespace KvOffload.TransferRecords

open KvOffload KvOffload.Base KvOffload.PolicyInterface KvOffload.CpuManager
open KvOffload.CpuPool KvOffload.CpuManagerSpec KvOffload.ManagerInterface
open KvOffload.ManagerRecords
open KvOffload.GatedCopies KvOffload.TransferBooks KvOffload.JobLedger

set_option autoImplicit false

/-- The keys of a transfer and their blocks, in order. -/
structure Prepared where
  isStore : Bool
  keys : List OffloadKey
  blockIds : List Nat
  deriving DecidableEq

def Prepared.transfer (entry : Prepared) : Transfer Nat OffloadKey where
  writes := entry.isStore
  slots := entry.keys.zip entry.blockIds

/-- The transfers that a manager prepared, by job id, and the offers made to it. -/
structure TransferLog where
  prepared : List Prepared := []
  offers : List (List OffloadKey) := []

namespace TransferLog

variable (log : TransferLog)

def record (prepared : List Prepared) : TransferLog :=
  { log with prepared := log.prepared ++ prepared }

def offer (keys : List OffloadKey) : TransferLog :=
  { log with offers := log.offers ++ [keys] }

/-- A store that takes no key prepares no transfer. -/
def accepted : Option PrepareStoreOutput → List Prepared
  | none => []
  | some output =>
      if output.keysToStore = [] then [] else [⟨true, output.keysToStore, output.storeSpec⟩]

end TransferLog

variable {M : Type}

instance : Recorder TransferLog M where
  note log call _ _ :=
    match call with
    | .prepareStore keys _ output => (log.offer keys).record (TransferLog.accepted output)
    | .prepareLoad keys blockIds => log.record [⟨false, keys, blockIds⟩]
    | _ => log

/-- A manager with its transfer log. -/
abbrev Recorded (M : Type) := Recording TransferLog M

/-- A manager that keeps all records. -/
abbrev Keeper (M : Type) := Logged (Recorded M)

section Records

variable (manager : Keeper M)

def prepared : List Prepared := manager.inner.record.prepared

def offers : List (List OffloadKey) := manager.inner.record.offers

theorem earlier_entry {entries : List Prepared} {jobId : JobId} {entry : Prepared}
    (found : entries[jobId]? = some entry) (later : List Prepared) :
    (entries ++ later)[jobId]? = some entry := by
  obtain ⟨within, _⟩ := List.getElem?_eq_some_iff.mp found
  rw [List.getElem?_append_left within]
  exact found

/-- The transfer of each job. -/
def tableOf (jobId : JobId) : Option (Transfer Nat OffloadKey) :=
  (prepared manager)[jobId]?.map Prepared.transfer

variable {manager} {after : Keeper M}

/-- A call that records nothing. -/
structure Unrecorded (manager after : Keeper M) : Prop where
  prepared : prepared after = prepared manager
  offers : offers after = offers manager

theorem unrecorded_refl (manager : Keeper M) : Unrecorded manager manager := ⟨rfl, rfl⟩

theorem unrecorded_trans {middle : Keeper M} (first : Unrecorded manager middle)
    (second : Unrecorded middle after) : Unrecorded manager after :=
  ⟨second.prepared.trans first.prepared, second.offers.trans first.offers⟩

variable [OffloadingManager M]

theorem lookup_recorded {key : OffloadKey} {reqContext : ReqContext} {result : LookupResult}
    (call : OffloadingLookup.lookup manager key reqContext = .ok (result, after)) :
    OffloadingLookup.lookup manager.inner.inner key reqContext =
        .ok (result, after.inner.inner) ∧ Unrecorded manager after := by
  obtain ⟨_, logged, rfl⟩ := lookup_told.mp call
  obtain ⟨_, inner, rfl⟩ := lookup_told.mp logged
  exact ⟨inner, rfl, rfl⟩

theorem prepare_store_recorded {keys : List OffloadKey} {reqContext : ReqContext}
    {bypassThreshold : Bool} {output : Option PrepareStoreOutput}
    (call : OffloadingManager.prepareStore manager keys reqContext bypassThreshold =
      .ok (output, after)) :
    OffloadingManager.prepareStore manager.inner.inner keys reqContext bypassThreshold =
        .ok (output, after.inner.inner) ∧
      prepared after = prepared manager ++ TransferLog.accepted output ∧
      offers after = offers manager ++ [keys] := by
  obtain ⟨_, logged, rfl⟩ := prepare_store_told.mp call
  obtain ⟨_, inner, rfl⟩ := prepare_store_told.mp logged
  exact ⟨inner, rfl, rfl⟩

theorem prepare_load_recorded {keys : List OffloadKey} {blockIds : List Nat}
    (call : OffloadingManager.prepareLoad manager keys = .ok (blockIds, after)) :
    OffloadingManager.prepareLoad manager.inner.inner keys = .ok (blockIds, after.inner.inner) ∧
      prepared after = prepared manager ++ [⟨false, keys, blockIds⟩] ∧
      offers after = offers manager := by
  obtain ⟨_, logged, rfl⟩ := prepare_load_told.mp call
  obtain ⟨_, inner, rfl⟩ := prepare_load_told.mp logged
  exact ⟨inner, rfl, rfl⟩

theorem complete_store_recorded {keys : List OffloadKey} {reqContext : ReqContext}
    (call : OffloadingManager.completeStore manager keys reqContext = .ok after) :
    OffloadingManager.completeStore manager.inner.inner keys reqContext =
        .ok after.inner.inner ∧ Unrecorded manager after := by
  obtain ⟨_, logged, same⟩ := map_eq_ok.mp call
  cases same
  obtain ⟨_, inner, same⟩ := map_eq_ok.mp logged
  cases same
  exact ⟨inner, rfl, rfl⟩

theorem complete_load_recorded {keys : List OffloadKey}
    (call : OffloadingManager.completeLoad manager keys = .ok after) :
    OffloadingManager.completeLoad manager.inner.inner keys = .ok after.inner.inner ∧
      Unrecorded manager after := by
  obtain ⟨_, logged, same⟩ := map_eq_ok.mp call
  cases same
  obtain ⟨_, inner, same⟩ := map_eq_ok.mp logged
  cases same
  exact ⟨inner, rfl, rfl⟩

theorem on_request_finished_recorded {reqContext : ReqContext}
    (call : OffloadingManager.onRequestFinished manager reqContext = .ok after) :
    OffloadingManager.onRequestFinished manager.inner.inner reqContext =
        .ok after.inner.inner ∧ Unrecorded manager after := by
  obtain ⟨_, logged, same⟩ := map_eq_ok.mp call
  cases same
  obtain ⟨_, inner, same⟩ := map_eq_ok.mp logged
  cases same
  exact ⟨inner, rfl, rfl⟩

theorem on_schedule_end_recorded {context : ScheduleEndContext}
    (call : OffloadingManager.onScheduleEnd manager context = .ok after) :
    OffloadingManager.onScheduleEnd manager.inner.inner context = .ok after.inner.inner ∧
      Unrecorded manager after := by
  obtain ⟨_, logged, same⟩ := map_eq_ok.mp call
  cases same
  obtain ⟨_, inner, same⟩ := map_eq_ok.mp logged
  cases same
  exact ⟨inner, rfl, rfl⟩

theorem reset_cache_recorded (call : OffloadingManager.resetCache manager = .ok after) :
    OffloadingManager.resetCache manager.inner.inner = .ok after.inner.inner ∧
      Unrecorded manager after := by
  obtain ⟨_, logged, same⟩ := map_eq_ok.mp call
  cases same
  obtain ⟨_, inner, same⟩ := map_eq_ok.mp logged
  cases same
  exact ⟨inner, rfl, rfl⟩

end Records

end KvOffload.TransferRecords
