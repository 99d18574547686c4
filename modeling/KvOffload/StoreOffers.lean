import KvOffload.ManagerRecords
import KvOffload.MirrorLookups
import KvOffload.RequestRecords

/-!
# What the store pointer moves past

A manager that records what it is offered. When a step moves the store pointer of a
full-attention group past a chunk, the chunk was offered or its last block is null, as long
as the pointer moves by a store. A load moves it to the end of the chunk in which the loaded
tokens end, which need not be loaded whole.
-/

namespace KvOffload.StoreOffers

open KvOffload KvOffload.Base KvOffload.ConnectorConfig KvOffload.ConnectorRequests
open KvOffload.ManagerInterface KvOffload.ManagerRecords KvOffload.ConnectorScheduler
open KvOffload.ConnectorLoads
open KvOffload.ConnectorStores KvOffload.LookupCalls KvOffload.ConnectorMoves
open KvOffload.ConnectorBuilds KvOffload.RequestRecords

set_option autoImplicit false

/-- Keys that are offered for a request. -/
structure Offer where
  reqContext : ReqContext
  keys : List OffloadKey
  deriving DecidableEq

/-- The offers that were made to a manager. -/
structure OfferLog where
  offers : List Offer := []

variable {M : Type}

instance : Recorder OfferLog M where
  note log call _ _ :=
    match call with
    | .prepareStore keys reqContext _ => ⟨log.offers ++ [⟨reqContext, keys⟩]⟩
    | _ => log

/-- A manager with its offer log. -/
abbrev Offered (M : Type) := Recording OfferLog M

def Offered.offers (manager : Offered M) : List Offer := manager.record.offers

/-- The chunk's key was offered for the request. -/
def OfferedFor (offers : List Offer) (status : RequestOffloadState) (group : GroupOffloadConfig)
    (chunkIdx : Nat) : Prop :=
  ∃ key, (status.groupStates group.groupIdx).offloadKeys[chunkIdx]? = some key ∧
    ∃ offer ∈ offers, offer.reqContext = status.reqContext ∧ key ∈ offer.keys

/-- The last block of the chunk is the null block. -/
def EndsInNull (config : SchedulerOffloadConfig) (status : RequestOffloadState)
    (group : GroupOffloadConfig) (chunkIdx : Nat) : Prop :=
  (status.groupStates group.groupIdx).blockIds[
    chunkIdx * config.blocksPerChunk + config.blocksPerChunk - 1]? = some 0

/-- The store pointer moves past the chunk. -/
def MovesPast (before after : RequestOffloadState) (group : GroupOffloadConfig)
    (chunkIdx : Nat) : Prop :=
  (before.groupStates group.groupIdx).nextStoredChunkIdx ≤ chunkIdx ∧
    chunkIdx < (after.groupStates group.groupIdx).nextStoredChunkIdx

section Groups

theorem find_group_config (config : SchedulerOffloadConfig) {group : GroupOffloadConfig}
    (member : group ∈ config.kvGroupConfigs) :
    RequestOffloadState.groupConfig config group.groupIdx = some group := by
  have distinct : ∀ first ∈ config.kvGroupConfigs, ∀ second ∈ config.kvGroupConfigs,
      first.groupIdx = second.groupIdx → first = second := by
    have nodup : (config.kvGroupConfigs.map GroupOffloadConfig.groupIdx).Nodup :=
      List.pairwise_map.mpr (config.ordered.imp fun less => less.ne)
    exact fun first firstMember second secondMember same =>
      List.inj_on_of_nodup_map nodup firstMember secondMember same
  unfold RequestOffloadState.groupConfig
  cases found : config.kvGroupConfigs.find? fun other => other.groupIdx = group.groupIdx with
  | none => exact absurd (List.find?_eq_none.mp found group member) (by simp)
  | some other =>
      have same := List.find?_some found
      rw [distinct other (List.mem_of_find?_eq_some found) group member (by simpa using same)]

theorem map_offloaded_state (config : SchedulerOffloadConfig) (status : RequestOffloadState)
    (change : GroupOffloadConfig → RequestGroupState → RequestGroupState)
    {group : GroupOffloadConfig} (member : group ∈ config.kvGroupConfigs) :
    (status.mapOffloaded config change).groupStates group.groupIdx =
      change group (status.groupStates group.groupIdx) := by
  unfold RequestOffloadState.mapOffloaded
  rw [RequestOffloadState.map_groups_states, find_group_config config member]

end Groups

section Offers

variable [OffloadingManager M] {offering : Offering} {group : GroupOffloadConfig}

theorem offer_chunk_adds {chunk : Nat × OffloadKey × Nat} {offers last : Offers M}
    (offered : offering.offerChunk group chunk.1 chunk.2.1 chunk.2.2 offers = .ok last) :
    (∀ key ∈ offers.keys, key ∈ last.keys) ∧
      (chunk.2.2 ≠ 0 → group.alignmentChunkCount = none →
        (offering.state group).nextStoredChunkIdx ≤ chunk.1 → chunk.2.1 ∈ last.keys) := by
  unfold Offering.offerChunk at offered
  split at offered
  · rename_i null
    cases offered
    exact ⟨fun _ member => member, fun present => absurd null present⟩
  · split at offered
    · rename_i unreachable
      cases offered
      refine ⟨fun _ member => member, fun _ unsegmented => ?_⟩
      unfold isStoreReachableSwaChunk at unreachable
      rw [unsegmented] at unreachable
      cases unreachable
    · split at offered
      · rename_i below
        have earlier : ∀ {goal : Prop},
            (offering.state group).nextStoredChunkIdx ≤ chunk.1 → goal :=
          fun above => absurd below.2 (Nat.not_lt.mpr above)
        split at offered
        · cases offered
          exact ⟨fun _ member => member, fun _ _ above => earlier above⟩
        · obtain ⟨⟨result, manager⟩, _, offered⟩ := bind_eq_ok.mp offered
          dsimp only at offered
          split at offered
          · cases offered
            exact ⟨fun _ member => member, fun _ _ above => earlier above⟩
          · cases offered
            exact ⟨fun _ member => List.mem_append_left _ member, fun _ _ above => earlier above⟩
      · cases offered
        refine ⟨fun _ member => List.mem_append_left _ member, fun _ _ _ => ?_⟩
        exact List.mem_append_right _ (List.mem_singleton_self _)

theorem offer_chunks_adds (chunks : List (Nat × OffloadKey × Nat)) {offers last : Offers M}
    (offered : offering.offerChunks group offers chunks = .ok last) :
    (∀ key ∈ offers.keys, key ∈ last.keys) ∧
      ∀ chunk ∈ chunks, chunk.2.2 ≠ 0 → group.alignmentChunkCount = none →
        (offering.state group).nextStoredChunkIdx ≤ chunk.1 → chunk.2.1 ∈ last.keys := by
  induction chunks generalizing offers with
  | nil =>
      cases offered
      exact ⟨fun _ member => member, nofun⟩
  | cons chunk rest ih =>
      obtain ⟨middle, first, offered⟩ := bind_eq_ok.mp offered
      obtain ⟨kept, own⟩ := offer_chunk_adds first
      obtain ⟨keptRest, others⟩ := ih offered
      refine ⟨fun key member => keptRest key (kept key member), ?_⟩
      intro other member present unsegmented above
      rcases List.mem_cons.mp member with same | later
      · rw [same] at present above ⊢
        exact keptRest _ (own present unsegmented above)
      · exact others other later present unsegmented above

omit [OffloadingManager M] in
theorem start_le (offering : Offering) (group : GroupOffloadConfig) :
    offering.startChunkIdx group ≤ (offering.state group).nextStoredChunkIdx := by
  unfold Offering.startChunkIdx
  split
  · exact Nat.zero_le _
  · exact le_rfl

omit [OffloadingManager M] in
/-- A chunk that can be stored has all its blocks. -/
theorem last_block_allocated {chunkIdx : Nat} (inside : chunkIdx < offering.numChunks group) :
    chunkIdx * offering.config.blocksPerChunk + offering.config.blocksPerChunk - 1 <
      (offering.state group).blockIds.length := by
  have positive := offering.config.blocks_pos
  have allocated : offering.numChunks group ≤
      (offering.state group).blockIds.length / offering.config.blocksPerChunk :=
    Nat.min_le_right _ _
  have whole : (chunkIdx + 1) * offering.config.blocksPerChunk ≤
      (offering.state group).blockIds.length :=
    (Nat.mul_le_mul_right _ (inside.trans_le allocated)).trans (Nat.div_mul_le_self _ _)
  rw [Nat.add_mul, Nat.one_mul] at whole
  omega

/-- A group's chunks from the pointer on are offered, unless their last block is null. -/
theorem offer_group_adds {offers last : Offers M}
    (offered : offering.offerGroup group offers = .ok last) :
    (∀ key ∈ offers.keys, key ∈ last.keys) ∧
      ∀ chunkIdx, (offering.state group).nextStoredChunkIdx ≤ chunkIdx →
        chunkIdx < offering.numChunks group → group.alignmentChunkCount = none →
        (offering.state group).blockIds[chunkIdx * offering.config.blocksPerChunk +
          offering.config.blocksPerChunk - 1]? = some 0 ∨
        ∃ key, (offering.state group).offloadKeys[chunkIdx]? = some key ∧ key ∈ last.keys := by
  unfold Offering.offerGroup at offered
  split at offered
  · rename_i nothing
    cases offered
    refine ⟨fun _ member => member, fun chunkIdx above inside => ?_⟩
    have start := start_le offering group
    omega
  · obtain ⟨_, known, offered⟩ := bind_eq_ok.mp offered
    have known := py_assert_eq_ok.mp known
    obtain ⟨kept, adds⟩ := offer_chunks_adds _ offered
    refine ⟨kept, fun chunkIdx above inside unsegmented => ?_⟩
    have start : offering.startChunkIdx group ≤ chunkIdx := (start_le offering group).trans above
    have listed : chunkIdx - offering.startChunkIdx group < (offering.chunks group).length := by
      rw [known]
      omega
    obtain ⟨chunk, found⟩ : ∃ chunk,
        (offering.chunks group)[chunkIdx - offering.startChunkIdx group]? = some chunk :=
      ⟨_, List.getElem?_eq_getElem listed⟩
    have member := List.mem_of_getElem? found
    unfold Offering.chunks at found
    dsimp only at found
    rw [List.getElem?_mapIdx, Option.map_eq_some_iff] at found
    obtain ⟨key, foundKey, same⟩ := found
    rw [List.getElem?_drop, List.getElem?_take, Nat.add_sub_cancel' start] at foundKey
    rw [Nat.add_sub_cancel' start] at same
    rw [if_pos inside] at foundKey
    obtain ⟨blockId, foundBlock⟩ : ∃ blockId, (offering.state group).blockIds[
        chunkIdx * offering.config.blocksPerChunk + offering.config.blocksPerChunk - 1]? =
          some blockId :=
      ⟨_, List.getElem?_eq_getElem (last_block_allocated inside)⟩
    by_cases null : blockId = 0
    · exact .inl (null ▸ foundBlock)
    · apply Or.inr
      refine ⟨key, foundKey, ?_⟩
      have present := adds chunk member
      rw [← same, List.getD_eq_getElem?_getD, foundBlock] at present
      exact present null unsegmented above

/-- The chunks that can be stored from the pointer on, of every group without segments. -/
theorem offer_groups_adds (groups : List GroupOffloadConfig) {offers last : Offers M}
    (offered : offering.offerGroups offers groups = .ok last) :
    (∀ key ∈ offers.keys, key ∈ last.keys) ∧
      ∀ group ∈ groups, group.alignmentChunkCount = none →
        ∀ chunkIdx, (offering.state group).nextStoredChunkIdx ≤ chunkIdx →
        chunkIdx < offering.numChunks group →
        (offering.state group).blockIds[chunkIdx * offering.config.blocksPerChunk +
          offering.config.blocksPerChunk - 1]? = some 0 ∨
        ∃ key, (offering.state group).offloadKeys[chunkIdx]? = some key ∧ key ∈ last.keys := by
  induction groups generalizing offers with
  | nil =>
      cases offered
      exact ⟨fun _ member => member, nofun⟩
  | cons group rest ih =>
      obtain ⟨middle, first, offered⟩ := bind_eq_ok.mp offered
      obtain ⟨kept, own⟩ := offer_group_adds first
      obtain ⟨keptRest, others⟩ := ih offered
      refine ⟨fun key member => keptRest key (kept key member), ?_⟩
      intro other member unsegmented chunkIdx above inside
      rcases List.mem_cons.mp member with same | later
      · rw [same] at above inside unsegmented ⊢
        rcases own chunkIdx above inside unsegmented with null | ⟨key, found, offered⟩
        · exact .inl null
        · exact .inr ⟨key, found, keptRest key offered⟩
      · exact others other later unsegmented chunkIdx above inside

end Offers

section Passing

/-- What the stores of a step do to a request: the pointer of a group without segments only
moves past chunks that were offered or end in the null block. -/
structure PassesOffered (config : SchedulerOffloadConfig) (offers : List Offer)
    (before after : RequestOffloadState) : Prop where
  context : after.reqContext = before.reqContext
  keys : ∀ groupIdx, (after.groupStates groupIdx).offloadKeys =
    (before.groupStates groupIdx).offloadKeys
  blocks : ∀ groupIdx, (after.groupStates groupIdx).blockIds =
    (before.groupStates groupIdx).blockIds
  passes : ∀ group ∈ config.kvGroupConfigs, group.alignmentChunkCount = none →
    ∀ chunkIdx, MovesPast before after group chunkIdx →
      OfferedFor offers after group chunkIdx ∨ EndsInNull config after group chunkIdx

variable {config : SchedulerOffloadConfig} {offers wider : List Offer}
  {before middle after : RequestOffloadState}

theorem passes_offered_same (context : after.reqContext = before.reqContext)
    (groups : after.groupStates = before.groupStates) :
    PassesOffered config offers before after where
  context := context
  keys := fun groupIdx => by rw [groups]
  blocks := fun groupIdx => by rw [groups]
  passes := by
    intro group _ _ chunkIdx moves
    unfold MovesPast at moves
    rw [groups] at moves
    omega

theorem offered_for_wider (subset : offers ⊆ wider) {group : GroupOffloadConfig}
    {chunkIdx : Nat} (offered : OfferedFor offers before group chunkIdx)
    (context : after.reqContext = before.reqContext)
    (keys : (before.groupStates group.groupIdx).offloadKeys <+:
      (after.groupStates group.groupIdx).offloadKeys) :
    OfferedFor wider after group chunkIdx := by
  obtain ⟨key, found, offer, member, own, inOffer⟩ := offered
  obtain ⟨rest, grown⟩ := keys
  have inside := (List.getElem?_eq_some_iff.mp found).1
  refine ⟨key, ?_, offer, subset member, own.trans context.symm, inOffer⟩
  rw [← grown, List.getElem?_append_left inside]
  exact found

theorem passes_offered_trans (subset : offers ⊆ wider)
    (first : PassesOffered config offers before middle)
    (second : PassesOffered config wider middle after) :
    PassesOffered config wider before after where
  context := second.context.trans first.context
  keys := fun groupIdx => (second.keys groupIdx).trans (first.keys groupIdx)
  blocks := fun groupIdx => (second.blocks groupIdx).trans (first.blocks groupIdx)
  passes := by
    intro group member unsegmented chunkIdx moves
    by_cases early : chunkIdx < (middle.groupStates group.groupIdx).nextStoredChunkIdx
    · rcases first.passes group member unsegmented chunkIdx ⟨moves.1, early⟩ with offered | null
      · apply Or.inl
        apply offered_for_wider subset offered second.context
        rw [second.keys]
      · apply Or.inr
        unfold EndsInNull at null ⊢
        rw [second.blocks]
        exact null
    · exact second.passes group member unsegmented chunkIdx ⟨Nat.le_of_not_lt early, moves.2⟩

/-- Chunks from the pointer on that can be stored were offered or end in the null block. -/
def OfferComplete (offering : Offering) (keys : List OffloadKey) : Prop :=
  ∀ group ∈ offering.config.kvGroupConfigs, group.alignmentChunkCount = none →
    ∀ chunkIdx, (offering.state group).nextStoredChunkIdx ≤ chunkIdx →
    chunkIdx < offering.numChunks group →
    (offering.state group).blockIds[chunkIdx * offering.config.blocksPerChunk +
      offering.config.blocksPerChunk - 1]? = some 0 ∨
    ∃ key, (offering.state group).offloadKeys[chunkIdx]? = some key ∧ key ∈ keys

theorem advance_passes {offering : Offering} {keys : List OffloadKey}
    (complete : OfferComplete offering keys)
    (recorded : ∀ key ∈ keys, ∃ offer ∈ offers,
      offer.reqContext = offering.status.reqContext ∧ key ∈ offer.keys)
    (context : after.reqContext = offering.status.reqContext)
    (groups : after.groupStates = (offering.status.advanceStoredIdx offering.config
      offering.numOffloadableTokens).groupStates) :
    PassesOffered offering.config offers offering.status after := by
  have advanced : ∀ groupIdx, ∃ pointer, (after.groupStates groupIdx) =
      { offering.status.groupStates groupIdx with nextStoredChunkIdx := pointer } := by
    intro groupIdx
    rw [groups, RequestOffloadState.advanceStoredIdx, RequestOffloadState.mapOffloaded,
      RequestOffloadState.map_groups_states]
    split
    · exact ⟨_, rfl⟩
    · exact ⟨_, rfl⟩
  have keysSame : ∀ groupIdx, (after.groupStates groupIdx).offloadKeys =
      (offering.status.groupStates groupIdx).offloadKeys := by
    intro groupIdx
    obtain ⟨pointer, same⟩ := advanced groupIdx
    rw [same]
  have blocksSame : ∀ groupIdx, (after.groupStates groupIdx).blockIds =
      (offering.status.groupStates groupIdx).blockIds := by
    intro groupIdx
    obtain ⟨pointer, same⟩ := advanced groupIdx
    rw [same]
  refine ⟨context, keysSame, blocksSame, ?_⟩
  intro group member unsegmented chunkIdx moves
  obtain ⟨above, below⟩ := moves
  rw [groups, RequestOffloadState.advanceStoredIdx, map_offloaded_state _ _ _ member] at below
  have inside : chunkIdx < offering.numChunks group :=
    (lt_max_iff.mp below).resolve_left (Nat.not_lt.mpr above)
  rcases complete group member unsegmented chunkIdx above inside with null | ⟨key, found, own⟩
  · apply Or.inr
    unfold EndsInNull
    rw [blocksSame]
    exact null
  · obtain ⟨offer, offerMember, sameContext, inOffer⟩ := recorded key own
    apply Or.inl
    refine ⟨key, ?_, offer, offerMember, sameContext.trans context.symm, inOffer⟩
    rw [keysSame]
    exact found

end Passing

section Stores

variable [OffloadingManager M]

/-- What the stores of a step do to the requests. -/
structure StoresPass (before after : OffloadingConnectorScheduler (Offered M)) : Prop where
  config : after.config = before.config
  offers : before.manager.offers ⊆ after.manager.offers
  requests : ∀ reqId later, after.reqStatus.get? reqId = some later →
    ∃ earlier, before.reqStatus.get? reqId = some earlier ∧
      PassesOffered before.config after.manager.offers earlier later

variable {before middle after : OffloadingConnectorScheduler (Offered M)}

omit [OffloadingManager M] in
theorem stores_pass_refl (scheduler : OffloadingConnectorScheduler (Offered M)) :
    StoresPass scheduler scheduler :=
  ⟨rfl, List.Subset.refl _, fun _ later found => ⟨later, found, passes_offered_same rfl rfl⟩⟩

omit [OffloadingManager M] in
theorem stores_pass_trans (first : StoresPass before middle) (second : StoresPass middle after) :
    StoresPass before after where
  config := second.config.trans first.config
  offers := List.Subset.trans first.offers second.offers
  requests := by
    intro reqId later found
    obtain ⟨between, foundBetween, passesLater⟩ := second.requests reqId later found
    obtain ⟨earlier, foundEarlier, passes⟩ := first.requests reqId between foundBetween
    rw [first.config] at passesLater
    exact ⟨earlier, foundEarlier, passes_offered_trans second.offers passes passesLater⟩

omit [OffloadingManager M] in
/-- One request is written. -/
theorem stores_pass_write {reqId : ReqId} {earlier later : RequestOffloadState}
    (found : before.reqStatus.get? reqId = some earlier)
    (passes : PassesOffered before.config after.manager.offers earlier later)
    (config : after.config = before.config)
    (offers : before.manager.offers ⊆ after.manager.offers)
    (requests : after.reqStatus = before.reqStatus.set reqId later) :
    StoresPass before after := by
  refine ⟨config, offers, ?_⟩
  intro other status foundStatus
  rw [requests, OrderedMap.get_set] at foundStatus
  split at foundStatus
  · rename_i same
    cases foundStatus
    exact ⟨earlier, same ▸ found, passes⟩
  · exact ⟨status, foundStatus, passes_offered_same rfl rfl⟩

omit [OffloadingManager M] in
/-- Only the manager moves. -/
theorem stores_pass_manager (config : after.config = before.config)
    (offers : before.manager.offers ⊆ after.manager.offers)
    (requests : after.reqStatus = before.reqStatus) : StoresPass before after := by
  refine ⟨config, offers, ?_⟩
  intro reqId later found
  rw [requests] at found
  exact ⟨later, found, passes_offered_same rfl rfl⟩

omit [OffloadingManager M] in
theorem stores_pass_forget (scheduler : OffloadingConnectorScheduler (Offered M))
    (reqId : ReqId) : StoresPass scheduler (scheduler.forget reqId) := by
  refine ⟨rfl, List.Subset.refl _, ?_⟩
  intro other status found
  have erased : (scheduler.reqStatus.erase reqId).get? other = some status := found
  rw [OrderedMap.get_erase] at erased
  split at erased
  · cases erased
  · exact ⟨status, erased, passes_offered_same rfl rfl⟩

theorem asked_offers {reqContext : ReqContext} {manager last : Offered M}
    (asked : Asked reqContext manager last) : last.offers = manager.offers := by
  induction asked with
  | refl => rfl
  | tail _ call ih =>
      refine Eq.trans ?_ ih
      cases call with
      | looked call =>
          obtain ⟨_, _, rfl⟩ := lookup_told.mp call
          rfl
      | touched _ => rfl

variable {build last : StoreBuild (Offered M)} {reqId : ReqId} {offering : Offering}

omit [OffloadingManager M] in
theorem enter_job_requests (build : StoreBuild (Offered M)) (reqId : ReqId)
    (status : RequestOffloadState) (gpuSpec : GPULoadStoreSpec) (output : PrepareStoreOutput)
    (fenced deferred : List Nat) :
    (build.enterJob reqId status gpuSpec output fenced deferred).scheduler.config =
        build.scheduler.config ∧
      (build.enterJob reqId status gpuSpec output fenced deferred).scheduler.manager =
        build.scheduler.manager ∧
      (build.enterJob reqId status gpuSpec output fenced deferred).scheduler.reqStatus =
        build.scheduler.reqStatus.set reqId
          (status.withTransferJob build.scheduler.jobCounter) := by
  have manager := MirrorLookups.fence_blocks_manager ({ build.scheduler with
    jobCounter := build.scheduler.jobCounter + 1 }.setStatus reqId
      (status.withTransferJob build.scheduler.jobCounter)) build.scheduler.jobCounter fenced
  obtain ⟨config, requests, _⟩ := fence_blocks_records build.scheduler.jobCounter fenced
    (({ build.scheduler with jobCounter := build.scheduler.jobCounter + 1 }).setStatus reqId
      (status.withTransferJob build.scheduler.jobCounter))
  exact ⟨config, manager, requests⟩

theorem store_accepted_passes {output : PrepareStoreOutput}
    (found : build.scheduler.reqStatus.get? reqId = some offering.status)
    (config : build.scheduler.config = offering.config)
    (passes : ∀ later, later.reqContext = offering.status.reqContext →
      later.groupStates = (offering.status.advanceStoredIdx offering.config
        offering.numOffloadableTokens).groupStates →
      PassesOffered offering.config build.scheduler.manager.offers offering.status later)
    (stored : storeAccepted build reqId offering output = .ok last) :
    StoresPass build.scheduler last.scheduler := by
  obtain ⟨manager, touched, stored⟩ := bind_eq_ok.mp stored
  obtain ⟨gpuSpec, _, stored⟩ := bind_eq_ok.mp stored
  obtain ⟨_, _, stored⟩ := bind_eq_ok.mp stored
  have offers := asked_offers (touch_asked offering.status.reqContext touched)
  have entering := enter_job_requests
    (build.withScheduler (build.scheduler.withManager manager)) reqId
    (offering.status.advanceStoredIdx offering.config offering.numOffloadableTokens) gpuSpec
    output
    (offering.sourceIds output.keysToStore fun group => group.slidingWindowSizeInChunks.isSome)
    (offering.sourceIds output.keysToStore fun group => group.slidingWindowSizeInChunks.isNone)
  dsimp only at stored
  generalize StoreBuild.enterJob _ _ _ _ _ _ _ = entered at stored entering
  obtain ⟨enteredConfig, enteredManager, enteredRequests⟩ := entering
  have same : entered.scheduler.manager.offers = build.scheduler.manager.offers := by
    rw [enteredManager]
    exact offers
  have entry : StoresPass build.scheduler entered.scheduler := by
    refine stores_pass_write found ?_ enteredConfig ?_ enteredRequests
    · rw [config, same]
      exact passes _ rfl rfl
    · rw [same]
      exact List.Subset.refl _
  split at stored
  · cases stored
    obtain ⟨fencedConfig, fencedRequests, _⟩ := fence_blocks_records build.scheduler.jobCounter
      (offering.sourceIds output.keysToStore fun group => group.slidingWindowSizeInChunks.isNone)
      entered.scheduler
    have fencedManager := MirrorLookups.fence_blocks_manager entered.scheduler
      build.scheduler.jobCounter
      (offering.sourceIds output.keysToStore fun group => group.slidingWindowSizeInChunks.isNone)
    apply stores_pass_trans entry
    refine stores_pass_manager fencedConfig ?_ fencedRequests
    exact fun offer member => fencedManager.symm ▸ member
  · cases stored
    exact entry

theorem store_offers_passes {keys : List OffloadKey}
    (found : build.scheduler.reqStatus.get? reqId = some offering.status)
    (config : build.scheduler.config = offering.config)
    (complete : OfferComplete offering keys)
    (stored : storeOffers build reqId offering keys = .ok last) :
    StoresPass build.scheduler last.scheduler := by
  unfold storeOffers at stored
  dsimp only at stored
  split at stored
  · rename_i nothing
    cases stored
    refine stores_pass_write found ?_ rfl (List.Subset.refl _) rfl
    rw [config]
    refine advance_passes complete ?_ rfl rfl
    rw [nothing]
    exact nofun
  · obtain ⟨⟨output, manager⟩, call, stored⟩ := bind_eq_ok.mp stored
    obtain ⟨inner, _, recorded⟩ := prepare_store_told.mp call
    have record : manager.offers = build.scheduler.manager.offers ++
        [⟨offering.status.reqContext, keys⟩] := by
      rw [recorded]
      rfl
    have grown : build.scheduler.manager.offers ⊆ manager.offers := by
      rw [record]
      exact List.subset_append_left _ _
    have inRecord : ∀ key ∈ keys, ∃ offer ∈ manager.offers,
        offer.reqContext = offering.status.reqContext ∧ key ∈ offer.keys := by
      intro key member
      rw [record]
      exact ⟨_, List.mem_append_right _ (List.mem_singleton_self _), rfl, member⟩
    have passes : ∀ later, later.reqContext = offering.status.reqContext →
        later.groupStates = (offering.status.advanceStoredIdx offering.config
          offering.numOffloadableTokens).groupStates →
        PassesOffered offering.config manager.offers offering.status later :=
      fun later context groups => advance_passes complete inRecord context groups
    cases output with
    | none =>
        cases stored
        exact stores_pass_manager rfl grown rfl
    | some output =>
        dsimp only at stored
        split at stored
        · cases stored
          refine stores_pass_write found ?_ rfl grown rfl
          rw [config]
          exact passes _ rfl rfl
        · have told : StoresPass build.scheduler
              (build.withScheduler (build.scheduler.withManager manager)).scheduler :=
            stores_pass_manager rfl grown rfl
          exact stores_pass_trans told
            (store_accepted_passes (by exact found) (by exact config) passes stored)

theorem store_request_passes {output : SchedulerOutput}
    (stored : storeRequest output build reqId = .ok last) :
    StoresPass build.scheduler last.scheduler := by
  unfold storeRequest at stored
  split at stored
  · cases stored
    exact stores_pass_refl _
  · rename_i status found
    obtain ⟨numTokens, _, stored⟩ := bind_eq_ok.mp stored
    obtain ⟨offers, offered, stored⟩ := bind_eq_ok.mp stored
    have same := asked_offers (offer_groups_asked _ offered)
    have asked : StoresPass build.scheduler
        (build.withScheduler (build.scheduler.withManager offers.manager)).scheduler := by
      refine stores_pass_manager rfl ?_ rfl
      exact fun offer member => same.symm ▸ member
    apply stores_pass_trans asked
    have later := store_offers_passes (by exact found) (by rfl)
      (by exact (offer_groups_adds _ offered).2) stored
    exact later

theorem store_requests_passes {output : SchedulerOutput} (reqIds : List ReqId)
    {build : StoreBuild (Offered M)} (stored : storeRequests output build reqIds = .ok last) :
    StoresPass build.scheduler last.scheduler := by
  induction reqIds generalizing build with
  | nil =>
      cases stored
      exact stores_pass_refl _
  | cons reqId rest ih =>
      obtain ⟨middle, first, stored⟩ := bind_eq_ok.mp stored
      exact stores_pass_trans (store_request_passes first) (ih stored)

end Stores

end KvOffload.StoreOffers
