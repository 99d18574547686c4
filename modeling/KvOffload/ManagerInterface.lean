import KvOffload.Tiering

/-!
# Offloading manager interface

The operations of `OffloadingManager` that the connector calls, and the two
managers of the repository as instances. A manager without retracted transfers
has nothing to drain.
-/

namespace KvOffload.ManagerInterface

open KvOffload.Base KvOffload.PolicyInterface KvOffload.CpuManager KvOffload.Tiering

set_option autoImplicit false

/-- The part of a manager that a lookup uses. -/
class OffloadingLookup (M : Type) where
  lookup : M → OffloadKey → ReqContext → Except PyError (LookupResult × M)
  touch : M → List OffloadKey → M

/-- The flag of `prepareStore` is `bypass_threshold`, which only managers with
that keyword read. -/
class OffloadingManager (M : Type) extends OffloadingLookup M where
  prepareStore : M → List OffloadKey → ReqContext → Bool →
    Except PyError (Option PrepareStoreOutput × M)
  completeStore : M → List OffloadKey → ReqContext → Except PyError M
  prepareLoad : M → List OffloadKey → Except PyError (List Nat × M)
  completeLoad : M → List OffloadKey → Except PyError M
  onNewRequest : M → ReqContext → OffloadPolicy × M
  onRequestFinished : M → ReqContext → Except PyError M
  onScheduleEnd : M → ScheduleEndContext → Except PyError M
  drainFlushJobIds : M → Finset JobId × M
  resetCache : M → Except PyError M

variable {P : Type} [CachePolicy P]

instance : OffloadingManager (CPUOffloadingManager P) where
  lookup manager key _ := manager.lookup key
  touch := CPUOffloadingManager.touch
  prepareStore manager keys _ bypassThreshold := manager.prepareStore keys bypassThreshold
  completeStore manager keys _ := manager.completeStore keys true
  prepareLoad := CPUOffloadingManager.prepareLoad
  completeLoad := CPUOffloadingManager.completeLoad
  onNewRequest manager _ := (.blockLevel, manager)
  onRequestFinished manager _ := .ok manager
  onScheduleEnd manager _ := .ok manager
  drainFlushJobIds manager := (∅, manager)
  resetCache manager := .ok manager.resetCache

instance : OffloadingManager (TieringOffloadingManager P) where
  lookup manager key reqContext := manager.lookup key reqContext
  touch manager keys := manager.touch keys
  prepareStore manager keys reqContext _ := manager.prepareStore keys reqContext
  completeStore manager keys reqContext := manager.completeStore keys reqContext true
  prepareLoad manager keys := manager.prepareLoad keys
  completeLoad manager keys := manager.completeLoad keys
  onNewRequest manager reqContext := manager.onNewRequest reqContext
  onRequestFinished manager reqContext := manager.onRequestFinished reqContext
  onScheduleEnd manager context := manager.onScheduleEnd context
  drainFlushJobIds := TieringOffloadingManager.drainFlushJobIds
  resetCache manager := manager.resetCache

end KvOffload.ManagerInterface
