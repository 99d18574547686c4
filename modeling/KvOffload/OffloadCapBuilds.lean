import KvOffload.CpuManagerSpec
import KvOffload.OffloadCaps

/-!
# Builds within the offload cap

The chunks that are offered for a request end within its cap whatever the step. A partial
tail does when its boundary does, which the source does not see to for a cap of zero.
-/

namespace KvOffload.OffloadCapBuilds

open KvOffload KvOffload.Base KvOffload.PolicyInterface KvOffload.CpuManager KvOffload.Tiering
open KvOffload.CpuManagerSpec KvOffload.ConnectorConfig KvOffload.ConnectorRequests
open KvOffload.ManagerInterface KvOffload.ConnectorScheduler KvOffload.ConnectorLoads
open KvOffload.ConnectorStores KvOffload.ConnectorMoves KvOffload.RequestRecords
open KvOffload.OffloadCaps

set_option autoImplicit false

variable {M : Type}

section Managers

/-- A manager accepts keys that it was offered only. -/
class AcceptsOffered (M : Type) [OffloadingManager M] : Prop where
  offered : ∀ (manager : M) (keys : List OffloadKey) (reqContext : ReqContext)
    (bypassThreshold : Bool) (output : PrepareStoreOutput) (after : M),
    OffloadingManager.prepareStore manager keys reqContext bypassThreshold =
      .ok (some output, after) → ∀ key ∈ output.keysToStore, key ∈ keys

variable {P : Type} [CachePolicy P]

theorem prepare_store_offered {manager after : CPUOffloadingManager P} {keys : List OffloadKey}
    {bypassThreshold : Bool} {output : PrepareStoreOutput}
    (prepared : manager.prepareStore keys bypassThreshold = .ok (some output, after)) :
    ∀ key ∈ output.keysToStore, key ∈ keys := by
  have gated := (gate_keys_spec manager keys bypassThreshold).2
  unfold CPUOffloadingManager.prepareStore at prepared
  generalize manager.gateKeys keys bypassThreshold = gate at gated prepared
  obtain ⟨passing, gatedManager⟩ := gate
  dsimp only at gated prepared
  split at prepared
  · cases prepared
    exact nofun
  · obtain ⟨⟨evicted, roomy⟩, _, prepared⟩ := bind_eq_ok.mp prepared
    cases evicted with
    | none => cases prepared
    | some toEvict =>
        obtain ⟨⟨reserved, reservedManager⟩, reserving, prepared⟩ := bind_eq_ok.mp prepared
        cases prepared
        obtain ⟨⟨blocks, allocated⟩, _, reserving⟩ := bind_eq_ok.mp reserving
        obtain ⟨_, _, reserving⟩ := bind_eq_ok.mp reserving
        cases reserving
        intro key member
        exact gated.subset (List.mem_filter.mp member).1

instance : AcceptsOffered (CPUOffloadingManager P) where
  offered _ _ _ _ _ _ prepared := prepare_store_offered prepared

instance : AcceptsOffered (TieringOffloadingManager P) where
  offered manager keys reqContext _ output after prepared := by
    obtain ⟨polled, _, prepared⟩ := bind_eq_ok.mp prepared
    obtain ⟨⟨accepted, primaryTier⟩, call, prepared⟩ := bind_eq_ok.mp prepared
    cases accepted with
    | none => cases prepared
    | some accepted =>
        obtain ⟨state, _, prepared⟩ := bind_eq_ok.mp prepared
        have same : accepted = output := by
          dsimp only at prepared
          split at prepared
          · cases prepared
            rfl
          · obtain ⟨_, _, prepared⟩ := bind_eq_ok.mp prepared
            cases prepared
            rfl
        exact same ▸ prepare_store_offered call

end Managers

section Tails

variable [OffloadingManager M] [AcceptsOffered M] {build after : StoreBuild M}

/-- A handed off boundary is at most the cap of its request. -/
def HandoffWithin (scheduler : OffloadingConnectorScheduler M) (reqId : ReqId)
    (entries : List PartialTailOffload) : Prop :=
  ∀ status, scheduler.reqStatus.get? reqId = some status →
    ∀ maxOffloadTokens, status.maxOffloadTokens = some maxOffloadTokens →
      ∀ entry ∈ entries, entry.boundary ≤ maxOffloadTokens

omit [OffloadingManager M] [AcceptsOffered M] in
theorem handoff_within_follows {before after : OffloadingConnectorScheduler M} {reqId : ReqId}
    {entries : List PartialTailOffload} (follows : Follows capRule before after)
    (within : HandoffWithin before reqId entries) : HandoffWithin after reqId entries := by
  intro later found maxOffloadTokens capped
  obtain ⟨earlier, foundEarlier, kept⟩ := follows.requests reqId later found
  rw [kept.cap] at capped
  exact within earlier foundEarlier maxOffloadTokens capped

theorem mem_of_map_m {α β : Type} {f : α → Except PyError β} (items : List α) {results : List β}
    (mapped : items.mapM f = .ok results) : ∀ result ∈ results, ∃ item ∈ items,
      f item = .ok result := by
  induction items generalizing results with
  | nil =>
      cases mapped
      exact nofun
  | cons item rest ih =>
      rw [List.mapM_cons] at mapped
      obtain ⟨first, made, mapped⟩ := bind_eq_ok.mp mapped
      obtain ⟨others, mappedRest, mapped⟩ := bind_eq_ok.mp mapped
      cases mapped
      intro result member
      rcases List.mem_cons.mp member with same | later
      · exact ⟨item, List.mem_cons_self .., same ▸ made⟩
      · obtain ⟨other, member, made⟩ := ih mappedRest result later
        exact ⟨other, List.mem_cons_of_mem _ member, made⟩

theorem handoff_within_fits {scheduler : OffloadingConnectorScheduler M} {reqId : ReqId}
    {entries : List PartialTailOffload} (within : HandoffWithin scheduler reqId entries) :
    TailFits capRule scheduler reqId entries := by
  intro status found entry member positive aligned keys manager after output made call
    maxOffloadTokens capped key accepted
  have offered := AcceptsOffered.offered _ _ _ _ _ _ call key (List.mem_dedup.mp accepted)
  obtain ⟨group, groupMember, own⟩ := mem_of_map_m _ made key offered
  exact ⟨entry.boundary, .tail groupMember positive aligned own,
    within status found maxOffloadTokens capped entry member⟩

end Tails

section Stores

variable {offering : Offering} {group : GroupOffloadConfig}

theorem calc_num_offloadable_le (status : RequestOffloadState) (config : SchedulerOffloadConfig)
    (numComputedTokens : Nat) {maxOffloadTokens : Nat}
    (capped : status.maxOffloadTokens = some maxOffloadTokens) :
    status.calcNumOffloadableTokens config numComputedTokens ≤ maxOffloadTokens := by
  unfold RequestOffloadState.calcNumOffloadableTokens
  rw [capped]
  dsimp only
  split
  · omega
  · omega

theorem num_chunks_le (offering : Offering) (group : GroupOffloadConfig) :
    offering.numChunks group ≤ offering.numOffloadableTokens / group.tokensPerChunk := by
  unfold Offering.numChunks RequestOffloadState.storableChunks
  dsimp only
  apply (Nat.min_le_left _ _).trans
  split
  · exact Nat.sub_le _ _
  · exact le_rfl

/-- A chunk that is offered ends within the tokens that can be offloaded. -/
theorem chunks_end (member : group ∈ offering.config.kvGroupConfigs)
    {chunk : Nat × OffloadKey × Nat} (offered : chunk ∈ offering.chunks group) :
    ∃ stop, EndsAt offering.config offering.status chunk.2.1 stop ∧
      stop ≤ offering.numOffloadableTokens := by
  obtain ⟨index, found⟩ := List.mem_iff_getElem?.mp offered
  unfold Offering.chunks at found
  dsimp only at found
  rw [List.getElem?_mapIdx, Option.map_eq_some_iff] at found
  obtain ⟨key, found, same⟩ := found
  rw [List.getElem?_drop, List.getElem?_take] at found
  split at found
  · rename_i inside
    rw [← same]
    refine ⟨_, .chunk member found, ?_⟩
    exact (Nat.mul_le_mul_right _ inside).trans ((Nat.mul_le_mul_right _ (num_chunks_le
      offering group)).trans (Nat.div_mul_le_self _ _))
  · cases found

variable [OffloadingManager M]

/-- Every key is one of these or the key of a chunk of the request. -/
def OfKeys (offering : Offering) (earlier keys : List OffloadKey) : Prop :=
  ∀ key ∈ keys, key ∈ earlier ∨ ∃ group ∈ offering.config.kvGroupConfigs,
    ∃ chunk ∈ offering.chunks group, chunk.2.1 = key

omit [OffloadingManager M] in
theorem of_keys_trans {earlier middle later : List OffloadKey}
    (first : OfKeys offering earlier middle) (second : OfKeys offering middle later) :
    OfKeys offering earlier later := by
  intro key member
  rcases second key member with between | own
  · exact first key between
  · exact .inr own

omit [OffloadingManager M] in
theorem of_keys_refl (offering : Offering) (keys : List OffloadKey) :
    OfKeys offering keys keys := fun _ member => .inl member

omit [OffloadingManager M] in
theorem of_keys_add (groupMember : group ∈ offering.config.kvGroupConfigs)
    {chunk : Nat × OffloadKey × Nat} (member : chunk ∈ offering.chunks group)
    (keys : List OffloadKey) : OfKeys offering keys (keys ++ [chunk.2.1]) := by
  intro key inside
  rcases List.mem_append.mp inside with earlier | last
  · exact .inl earlier
  · exact .inr ⟨group, groupMember, chunk, member, (List.mem_singleton.mp last).symm⟩

theorem offer_chunk_keys (groupMember : group ∈ offering.config.kvGroupConfigs)
    {chunk : Nat × OffloadKey × Nat} (member : chunk ∈ offering.chunks group)
    {offers last : Offers M}
    (offered : offering.offerChunk group chunk.1 chunk.2.1 chunk.2.2 offers = .ok last) :
    OfKeys offering offers.keys last.keys := by
  unfold Offering.offerChunk at offered
  split at offered
  · cases offered
    exact of_keys_refl _ _
  · split at offered
    · cases offered
      exact of_keys_refl _ _
    · split at offered
      · split at offered
        · cases offered
          exact of_keys_refl _ _
        · obtain ⟨⟨result, manager⟩, _, offered⟩ := bind_eq_ok.mp offered
          dsimp only at offered
          split at offered
          · cases offered
            exact of_keys_refl _ _
          · cases offered
            exact of_keys_add groupMember member _
      · cases offered
        exact of_keys_add groupMember member _

theorem offer_chunks_keys (groupMember : group ∈ offering.config.kvGroupConfigs)
    (chunks : List (Nat × OffloadKey × Nat)) (own : ∀ chunk ∈ chunks, chunk ∈ offering.chunks group)
    {offers last : Offers M} (offered : offering.offerChunks group offers chunks = .ok last) :
    OfKeys offering offers.keys last.keys := by
  induction chunks generalizing offers with
  | nil =>
      cases offered
      exact of_keys_refl _ _
  | cons chunk rest ih =>
      obtain ⟨middle, first, offered⟩ := bind_eq_ok.mp offered
      apply of_keys_trans (offer_chunk_keys groupMember (own chunk (List.mem_cons_self ..)) first)
      apply ih _ offered
      exact fun other member => own other (List.mem_cons_of_mem _ member)

theorem offer_groups_keys (groups : List GroupOffloadConfig)
    (own : ∀ group ∈ groups, group ∈ offering.config.kvGroupConfigs) {offers last : Offers M}
    (offered : offering.offerGroups offers groups = .ok last) :
    OfKeys offering offers.keys last.keys := by
  induction groups generalizing offers with
  | nil =>
      cases offered
      exact of_keys_refl _ _
  | cons group rest ih =>
      obtain ⟨middle, first, offered⟩ := bind_eq_ok.mp offered
      have first : OfKeys offering offers.keys middle.keys := by
        unfold Offering.offerGroup at first
        split at first
        · cases first
          exact of_keys_refl _ _
        · obtain ⟨_, _, first⟩ := bind_eq_ok.mp first
          exact offer_chunks_keys (own group (List.mem_cons_self ..)) _ (fun _ member => member)
            first
      apply of_keys_trans first
      apply ih _ offered
      exact fun other member => own other (List.mem_cons_of_mem _ member)

variable [AcceptsOffered M] {build after : StoreBuild M}

theorem store_offers_follows {reqId : ReqId} {keys : List OffloadKey}
    (found : build.scheduler.reqStatus.get? reqId = some offering.status)
    (within : WithinCap build.scheduler.config offering.status keys)
    (stored : storeOffers build reqId offering keys = .ok after) :
    Follows capRule build.scheduler after.scheduler := by
  have advanced := @follows_set_status M capRule _ _ _ _ found
    (kept_advance offering.config offering.status offering.numOffloadableTokens)
  unfold storeOffers at stored
  dsimp only at stored
  split at stored
  · cases stored
    exact advanced
  · obtain ⟨⟨output, manager⟩, call, stored⟩ := bind_eq_ok.mp stored
    cases output with
    | none =>
        cases stored
        exact follows_of_same rfl rfl rfl
    | some output =>
        dsimp only at stored
        split at stored
        · cases stored
          exact ⟨advanced.config, advanced.requests, advanced.jobs⟩
        · have swapped : Follows capRule build.scheduler
              (build.withScheduler (build.scheduler.withManager manager)).scheduler :=
            follows_of_same rfl rfl rfl
          apply follows_trans swapped
          refine store_accepted_follows (by exact found)
            (kept_advance offering.config offering.status offering.numOffloadableTokens) ?_ stored
          intro maxOffloadTokens capped key member
          exact within maxOffloadTokens capped key
            (AcceptsOffered.offered _ _ _ _ _ _ call key (List.mem_dedup.mp member))

theorem store_request_follows {output : SchedulerOutput} {reqId : ReqId}
    (stored : storeRequest output build reqId = .ok after) :
    Follows capRule build.scheduler after.scheduler := by
  unfold storeRequest at stored
  split at stored
  · cases stored
    exact follows_refl _
  · rename_i status found
    obtain ⟨numTokens, _, stored⟩ := bind_eq_ok.mp stored
    obtain ⟨offers, offered, stored⟩ := bind_eq_ok.mp stored
    have keys := offer_groups_keys _ (fun _ member => member) offered
    have swapped : Follows capRule build.scheduler
        (build.withScheduler (build.scheduler.withManager offers.manager)).scheduler :=
      follows_of_same rfl rfl rfl
    apply follows_trans swapped
    have later := store_offers_follows (by exact found) (by
      intro maxOffloadTokens capped key member
      rcases keys key member with impossible | ⟨group, groupMember, chunk, chunkMember, rfl⟩
      · cases impossible
      · obtain ⟨stop, ends, bounded⟩ := chunks_end groupMember chunkMember
        exact ⟨stop, ends, bounded.trans (calc_num_offloadable_le _ _ _ capped)⟩) stored
    exact later

theorem store_requests_follows {output : SchedulerOutput} (reqIds : List ReqId)
    {build : StoreBuild M} (stored : storeRequests output build reqIds = .ok after) :
    Follows capRule build.scheduler after.scheduler := by
  induction reqIds generalizing build with
  | nil =>
      cases stored
      exact follows_refl _
  | cons reqId rest ih =>
      obtain ⟨middle, first, stored⟩ := bind_eq_ok.mp stored
      exact follows_trans (store_request_follows first) (ih stored)

end Stores

section Builds

variable [OffloadingManager M] [AcceptsOffered M] {scheduler after : OffloadingConnectorScheduler M}

theorem build_tails_follows {build : StoreBuild M} {tails : StoreBuild M}
    {output : SchedulerOutput}
    (within : ∀ handoff ∈ output.partialTailOffloads.entries,
      HandoffWithin build.scheduler handoff.1 handoff.2)
    (built : buildPartialTailStoreJobs build output = .ok tails) :
    Follows capRule build.scheduler tails.scheduler := by
  apply build_partial_tail_store_jobs_follows _ built
  intro scheduler follows handoff member
  exact handoff_within_fits (handoff_within_follows follows (within handoff member))

theorem build_connector_meta_follows {output : SchedulerOutput}
    {connectorMeta : OffloadingConnectorMetadata}
    (within : ∀ handoff ∈ output.partialTailOffloads.entries,
      HandoffWithin scheduler handoff.1 handoff.2)
    (built : buildConnectorMeta scheduler output = .ok (connectorMeta, after)) :
    Follows capRule scheduler after := by
  obtain ⟨begun, tails, stores, signaled, beginning, tailed, stored, signaling, rfl⟩ :=
    build_connector_meta_stages built
  have first : Follows capRule scheduler begun := before_tails_follows cap_rule_free beginning
  have second : Follows capRule begun tails.scheduler :=
    build_tails_follows (fun handoff member =>
      handoff_within_follows first (within handoff member)) tailed
  have cleared : Follows capRule signaled (clearBatch signaled) := follows_of_same rfl rfl rfl
  apply follows_trans first
  apply follows_trans second
  apply follows_trans (store_requests_follows _ stored)
  exact follows_trans (signal_finished_follows _ signaling) cleared

end Builds

end KvOffload.OffloadCapBuilds
