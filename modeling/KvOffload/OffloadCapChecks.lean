import KvOffload.OffloadCapBuilds
import KvOffload.SparseTables

/-!
# The checks of the regular offers

Before its chunks are offered a group is checked for their keys, and the spec of an accepted
store for its lengths. The first check holds under every cap once the keys of the computed
tokens are known, the second always: a build that is checked for computed tokens only, with
no regard to the cap, comes to the same end.
-/

namespace KvOffload.OffloadCapChecks

open KvOffload KvOffload.Base KvOffload.ConnectorConfig KvOffload.ConnectorRequests
open KvOffload.ManagerInterface KvOffload.ConnectorScheduler KvOffload.ConnectorStores
open KvOffload.SparseTables KvOffload.OffloadCapBuilds

set_option autoImplicit false

variable {M : Type}

/-- The keys of the computed tokens are known. No cap enters. -/
def KeysKnown (status : RequestOffloadState) (numTokens : Nat) (group : GroupOffloadConfig) :
    Prop :=
  min numTokens status.req.numTokens / group.tokensPerChunk ≤
    (status.groupStates group.groupIdx).offloadKeys.length

instance (status : RequestOffloadState) (numTokens : Nat) (group : GroupOffloadConfig) :
    Decidable (KeysKnown status numTokens group) :=
  inferInstanceAs (Decidable (_ ≤ _))

section Offers

variable {config : SchedulerOffloadConfig} {settings : ConnectorSettings}
  {status : RequestOffloadState}

theorem offloadable_le (config : SchedulerOffloadConfig) (status : RequestOffloadState)
    (numTokens : Nat) :
    status.calcNumOffloadableTokens config numTokens ≤ min numTokens status.req.numTokens := by
  unfold RequestOffloadState.calcNumOffloadableTokens
  cases status.maxOffloadTokens with
  | none =>
      dsimp only
      split
      · exact Nat.min_le_left _ _
      · exact le_rfl
  | some maxOffloadTokens =>
      dsimp only
      split
      · exact (Nat.min_le_left _ _).trans (Nat.min_le_left _ _)
      · exact Nat.min_le_left _ _

/-- With the keys of its computed tokens known, a request passes the check under every cap. -/
theorem chunks_length_of_known {numTokens : Nat} {group : GroupOffloadConfig}
    (known : KeysKnown status numTokens group) :
    ((Offering.mk config settings status
        (status.calcNumOffloadableTokens config numTokens)).chunks group).length =
      (Offering.mk config settings status
          (status.calcNumOffloadableTokens config numTokens)).numChunks group -
        (Offering.mk config settings status
          (status.calcNumOffloadableTokens config numTokens)).startChunkIdx group := by
  have inside := (num_chunks_le (Offering.mk config settings status
    (status.calcNumOffloadableTokens config numTokens)) group).trans
      ((Nat.div_le_div_right (offloadable_le config status numTokens)).trans known)
  unfold Offering.chunks
  rw [List.length_mapIdx, List.length_drop, List.length_take]
  exact congrArg (fun taken => taken - _) (Nat.min_eq_left inside)

end Offers

section Specs

variable (offering : Offering) (keysToStore : List OffloadKey)

/-- The sizes of the groups of a store always add up to its sources. -/
theorem store_sizes_sum :
    (offering.config.kvGroupConfigs.foldl (fun sizes group =>
        sizes.set group.groupIdx (offering.sourceBlocks group keysToStore).length)
      (List.replicate offering.config.numKvCacheGroups 0)).sum =
        (offering.sourceIds keysToStore fun _ => true).length := by
  have distinct : ((offering.config.kvGroupConfigs.map fun group =>
      (group.groupIdx, group)).map Prod.fst).Nodup := by
    rw [List.map_map]
    exact List.pairwise_map.mpr (offering.config.ordered.imp fun less => less.ne)
  have empty : ∀ entry ∈ offering.config.kvGroupConfigs.map fun group => (group.groupIdx, group),
      (List.replicate offering.config.numKvCacheGroups 0)[entry.1]? = some 0 := by
    intro entry member
    obtain ⟨group, known, rfl⟩ := List.mem_map.mp member
    exact List.getElem?_replicate_of_lt (offering.config.bounded group known)
  have filled := fill_sum (fun group => (offering.sourceBlocks group keysToStore).length) _
    distinct empty
  rw [fill, List.foldl_map] at filled
  rw [filled, List.sum_replicate, smul_zero, Nat.zero_add, List.map_map,
    Offering.sourceIds, List.filter_true, List.length_flatMap]
  congr 1
  apply List.map_congr_left
  intro group _
  exact (List.length_map _).symm

theorem set_groups_length {ν : Type} (value : GroupOffloadConfig → ν)
    (groups : List GroupOffloadConfig) (table : List ν) :
    (groups.foldl (fun table group => table.set group.groupIdx (value group)) table).length =
      table.length := by
  induction groups generalizing table with
  | nil => rfl
  | cons group rest ih => exact (ih _).trans (List.length_set ..)

/-- The spec of a store is made whatever was accepted. -/
theorem store_spec_made : ∃ gpuSpec, offering.storeSpec keysToStore = .ok gpuSpec := by
  unfold Offering.storeSpec
  refine ⟨_, gpu_spec_make_ok (store_sizes_sum offering keysToStore) ?_⟩
  rw [set_groups_length, set_groups_length]

end Specs

section Builds

variable [OffloadingManager M]

/-- `offerGroup`, checked for the keys of all computed tokens. -/
def offerKnownGroup (offering : Offering) (numTokens : Nat) (group : GroupOffloadConfig)
    (offers : Offers M) : Except PyError (Offers M) :=
  if offering.numChunks group ≤ offering.startChunkIdx group then .ok offers
  else do
    pyAssert (KeysKnown offering.status numTokens group)
    offering.offerChunks group offers (offering.chunks group)

def offerKnownGroups (offering : Offering) (numTokens : Nat) :
    Offers M → List GroupOffloadConfig → Except PyError (Offers M)
  | offers, [] => .ok offers
  | offers, group :: rest => do
      let offers ← offerKnownGroup offering numTokens group offers
      offerKnownGroups offering numTokens offers rest

/-- `storeRequest` with the check that no cap enters. -/
def storeKnownRequest (output : SchedulerOutput) (build : StoreBuild M) (reqId : ReqId) :
    Except PyError (StoreBuild M) :=
  match build.scheduler.reqStatus.get? reqId with
  | none => .ok build
  | some status => do
      let scheduler := build.scheduler
      let numTokens ← numTokensAfterBatch output status.req
      let offering : Offering :=
        ⟨scheduler.config, scheduler.settings, status,
          status.calcNumOffloadableTokens scheduler.config numTokens⟩
      let offers ← offerKnownGroups offering numTokens ⟨scheduler.manager, build.offered, []⟩
        scheduler.config.kvGroupConfigs
      storeOffers { build with
        scheduler := scheduler.withManager offers.manager
        offered := offers.offered } reqId offering offers.keys

def storeKnownRequests (output : SchedulerOutput) :
    StoreBuild M → List ReqId → Except PyError (StoreBuild M)
  | build, [] => .ok build
  | build, reqId :: rest => do
      let build ← storeKnownRequest output build reqId
      storeKnownRequests output build rest

/-- `buildStoreJobs` with the check that no cap enters. -/
def buildKnownStoreJobs (build : StoreBuild M) (output : SchedulerOutput) :
    Except PyError (StoreBuild M) :=
  storeKnownRequests output build (output.numScheduledTokens.keys ++ output.finishedReqIds)

variable {config : SchedulerOffloadConfig} {settings : ConnectorSettings}
  {status : RequestOffloadState} {output : SchedulerOutput}

theorem offer_group_of_known {numTokens : Nat} {group : GroupOffloadConfig}
    {offers after : Offers M}
    (offered : offerKnownGroup ⟨config, settings, status,
      status.calcNumOffloadableTokens config numTokens⟩ numTokens group offers = .ok after) :
    Offering.offerGroup ⟨config, settings, status,
      status.calcNumOffloadableTokens config numTokens⟩ group offers = .ok after := by
  unfold offerKnownGroup at offered
  unfold Offering.offerGroup
  split at offered
  · rename_i nothing
    rw [if_pos nothing]
    exact offered
  · rename_i something
    obtain ⟨_, known, offered⟩ := bind_eq_ok.mp offered
    rw [if_neg something, py_assert_of (chunks_length_of_known (py_assert_eq_ok.mp known)), ok_bind]
    exact offered

theorem offer_groups_of_known {numTokens : Nat} (groups : List GroupOffloadConfig)
    {offers after : Offers M}
    (offered : offerKnownGroups ⟨config, settings, status,
      status.calcNumOffloadableTokens config numTokens⟩ numTokens offers groups = .ok after) :
    Offering.offerGroups ⟨config, settings, status,
      status.calcNumOffloadableTokens config numTokens⟩ offers groups = .ok after := by
  induction groups generalizing offers with
  | nil => exact offered
  | cons group rest ih =>
      obtain ⟨middle, first, offered⟩ := bind_eq_ok.mp offered
      unfold Offering.offerGroups
      rw [offer_group_of_known first, ok_bind]
      exact ih offered

theorem store_request_of_known {build after : StoreBuild M} {reqId : ReqId}
    (stored : storeKnownRequest output build reqId = .ok after) :
    storeRequest output build reqId = .ok after := by
  unfold storeKnownRequest at stored
  unfold storeRequest
  cases found : build.scheduler.reqStatus.get? reqId with
  | none =>
      rw [found] at stored
      exact stored
  | some status =>
      simp only [found] at stored
      obtain ⟨numTokens, counted, stored⟩ := bind_eq_ok.mp stored
      obtain ⟨offers, offered, stored⟩ := bind_eq_ok.mp stored
      dsimp only
      rw [counted, ok_bind, offer_groups_of_known _ offered, ok_bind]
      exact stored

theorem store_requests_of_known (reqIds : List ReqId) {build after : StoreBuild M}
    (stored : storeKnownRequests output build reqIds = .ok after) :
    storeRequests output build reqIds = .ok after := by
  induction reqIds generalizing build with
  | nil => exact stored
  | cons reqId rest ih =>
      obtain ⟨middle, first, stored⟩ := bind_eq_ok.mp stored
      unfold storeRequests
      rw [store_request_of_known first, ok_bind]
      exact ih stored

/-- The regular offers raise only where they would with no cap entering a check. -/
theorem build_store_jobs_of_known {build after : StoreBuild M}
    (stored : buildKnownStoreJobs build output = .ok after) :
    buildStoreJobs build output = .ok after :=
  store_requests_of_known _ stored

end Builds

end KvOffload.OffloadCapChecks
