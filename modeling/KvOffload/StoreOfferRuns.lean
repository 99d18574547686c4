import KvOffload.LruPolicy
import KvOffload.StoreOffers

/-!
# The store pointer over whole runs

While every load ends on a chunk boundary of each full-attention group, the store pointer
passes no chunk that the request computes itself unless the chunk was offered. A load that
ends inside a chunk, as those of partial tails do, leaves that chunk out for good.
-/

namespace KvOffload.StoreOfferRuns

open KvOffload KvOffload.Base KvOffload.PolicyInterface KvOffload.CpuManager
open KvOffload.ConnectorConfig KvOffload.ConnectorRequests KvOffload.ManagerInterface
open KvOffload.ConnectorScheduler KvOffload.ConnectorLoads KvOffload.ConnectorStores
open KvOffload.ConnectorMoves KvOffload.ConnectorRuns KvOffload.RequestRecords
open KvOffload.StoreOffers

set_option autoImplicit false

variable {M : Type}

section Steps

/-- The store pointers do not advance; nothing is asked of the keys that are stored. -/
def pointerRule : RecordRule where
  Tables _ _ := True
  Keeps before after := after.reqContext = before.reqContext ∧ after.policy = before.policy ∧
    ∀ groupIdx, QuietGroup (fun _ _ => True) (before.groupStates groupIdx)
      (after.groupStates groupIdx)
  Stored _ _ _ := True
  steady := fun _ => trivial
  trans := fun ⟨context, policy, groups⟩ ⟨contextLater, policyLater, groupsLater⟩ =>
    ⟨contextLater.trans context, policyLater.trans policy, fun groupIdx =>
      ⟨(groups groupIdx).keys.trans (groupsLater groupIdx).keys,
        (groupsLater groupIdx).pointer.trans (groups groupIdx).pointer, trivial⟩⟩
  stored := fun _ _ => trivial
  noted := fun _ context policy _ groups => ⟨context, policy, groups⟩

theorem pointer_rule_free : pointerRule.Free :=
  fun _ _ => trivial

theorem follows_moves_past {before after : OffloadingConnectorScheduler M}
    (follows : Follows pointerRule before after) {reqId : ReqId}
    {earlier later : RequestOffloadState} (found : before.reqStatus.get? reqId = some earlier)
    (foundLater : after.reqStatus.get? reqId = some later) (group : GroupOffloadConfig)
    (chunkIdx : Nat) : ¬MovesPast earlier later group chunkIdx := by
  obtain ⟨same, foundSame, kept⟩ := follows.requests reqId later foundLater
  rw [found] at foundSame
  cases foundSame
  rintro ⟨above, below⟩
  have quiet := (kept.2.2 group.groupIdx).pointer
  omega

variable [OffloadingManager M] {before after : OffloadingConnectorScheduler (Offered M)}

theorem signal_finished_passes (reqIds : List ReqId)
    {scheduler : OffloadingConnectorScheduler (Offered M)}
    (signaled : signalFinished scheduler reqIds = .ok after) : StoresPass scheduler after := by
  induction reqIds generalizing scheduler with
  | nil =>
      cases signaled
      exact stores_pass_refl _
  | cons reqId rest ih =>
      unfold signalFinished at signaled
      split at signaled
      · exact ih signaled
      · rename_i status found
        obtain ⟨manager, call, signaled⟩ := bind_eq_ok.mp signaled
        obtain ⟨inner, _, same⟩ := map_eq_ok.mp call
        have grown : scheduler.manager.offers ⊆ manager.offers := by
          rw [← same]
          exact List.Subset.refl _
        have flagged : StoresPass scheduler ((scheduler.withManager manager).setStatus reqId
            { status with finishedSignaled := true }) := by
          refine stores_pass_write found ?_ rfl grown rfl
          exact passes_offered_same rfl rfl
        dsimp only at signaled
        apply stores_pass_trans _ (ih signaled)
        split
        · exact stores_pass_trans flagged (stores_pass_forget _ reqId)
        · exact flagged

/-- In a step the pointer moves past a chunk only when the step stores. -/
theorem build_moves_past {output : SchedulerOutput}
    {connectorMeta : OffloadingConnectorMetadata}
    (built : buildConnectorMeta before output = .ok (connectorMeta, after)) {reqId : ReqId}
    {earlier later : RequestOffloadState} (found : before.reqStatus.get? reqId = some earlier)
    (foundLater : after.reqStatus.get? reqId = some later) {group : GroupOffloadConfig}
    (member : group ∈ before.config.fullAttentionGroups) {chunkIdx : Nat}
    (moves : MovesPast earlier later group chunkIdx) :
    OfferedFor after.manager.offers later group chunkIdx ∨
      EndsInNull before.config later group chunkIdx := by
  obtain ⟨begun, tails, stores, signaled, beginning, tailed, stored, signaling, rfl⟩ :=
    build_connector_meta_stages built
  have first : Follows pointerRule before begun := before_tails_follows pointer_rule_free beginning
  have second : Follows pointerRule begun tails.scheduler :=
    build_partial_tail_store_jobs_follows (fun _ _ _ _ _ _ _ _ _ _ _ _ _ _ _ _ => trivial) tailed
  have quiet := follows_trans first second
  have passes := stores_pass_trans (store_requests_passes _ stored)
    (signal_finished_passes _ signaling)
  obtain ⟨middle, foundMiddle, passing⟩ := passes.requests reqId later foundLater
  obtain ⟨same, foundSame, kept⟩ := quiet.requests reqId middle foundMiddle
  rw [found] at foundSame
  cases foundSame
  obtain ⟨groupMember, full⟩ := before.config.mem_full_attention_groups.mp member
  have unsegmented : group.alignmentChunkCount = none := by
    by_contra segmented
    have window := (before.config.well_formed group groupMember).segment_window
      (Option.ne_none_iff_isSome.mp segmented)
    rw [full] at window
    cases window
  have past : MovesPast middle later group chunkIdx :=
    ⟨(kept.2.2 group.groupIdx).pointer.trans moves.1, moves.2⟩
  rw [quiet.config] at passing
  exact passing.passes group groupMember unsegmented chunkIdx past

/-- A load moves the pointers to the ends of the chunks in which its tokens end. -/
theorem load_moves_past {M : Type} [OffloadingManager M]
    {before after : OffloadingConnectorScheduler M} {reqId : ReqId}
    {blocks : List (List KVCacheBlock)} {numExternalTokens : Nat}
    (called : updateStateAfterAlloc before reqId blocks numExternalTokens = .ok after)
    {other : ReqId} {earlier later : RequestOffloadState}
    (found : before.reqStatus.get? other = some earlier)
    (foundLater : after.reqStatus.get? other = some later) {group : GroupOffloadConfig}
    (member : group ∈ before.config.kvGroupConfigs) {chunkIdx : Nat}
    (moves : MovesPast earlier later group chunkIdx) :
    other = reqId ∧ numExternalTokens ≠ 0 ∧ earlier.policy = .blockLevel ∧
      chunkIdx < cdiv (earlier.numLocallyComputedTokens + numExternalTokens)
        group.tokensPerChunk := by
  unfold updateStateAfterAlloc at called
  split at called
  · cases called
    rw [found] at foundLater
    cases foundLater
    exact absurd moves.2 (Nat.not_lt.mpr moves.1)
  · rename_i external
    obtain ⟨status, foundStatus, called⟩ := bind_eq_ok.mp called
    have foundStatus := status_of_ok foundStatus
    obtain ⟨_, _, called⟩ := bind_eq_ok.mp called
    obtain ⟨plan, _, called⟩ := bind_eq_ok.mp called
    obtain ⟨⟨cpuBlockIds, manager⟩, _, called⟩ := bind_eq_ok.mp called
    obtain ⟨dstSpec, _, called⟩ := bind_eq_ok.mp called
    obtain ⟨_, _, called⟩ := bind_eq_ok.mp called
    cases called
    have written : (before.reqStatus.set reqId _).get? other = some later := foundLater
    rw [OrderedMap.get_set] at written
    split at written
    · rename_i same
      cases written
      rw [same, foundStatus] at found
      cases found
      obtain ⟨above, below⟩ := moves
      have skipped : chunkIdx < ((skipHitChunks before.config earlier
          (earlier.numLocallyComputedTokens + numExternalTokens)).groupStates
            group.groupIdx).nextStoredChunkIdx := below
      unfold skipHitChunks at skipped
      split at skipped
      · rename_i blockLevel
        rw [map_offloaded_state _ _ _ member] at skipped
        exact ⟨same, external, blockLevel, skipped⟩
      · exact absurd skipped (Nat.not_lt.mpr above)
    · rw [found] at written
      cases written
      exact absurd moves.2 (Nat.not_lt.mpr moves.1)

end Steps

section Runs

variable [OffloadingManager M]

/-- The condition on a step: a load ends on a chunk boundary of every full-attention group, or
inside a chunk that the pointer had passed. -/
def LoadsWhole (state : RunState M) : ConnectorEvent → Prop
  | .updateStateAfterAlloc reqId _ numExternalTokens =>
      ∀ status ∈ state.scheduler.reqStatus.get? reqId, status.policy = .blockLevel →
        ∀ group ∈ state.scheduler.config.fullAttentionGroups,
          (status.numLocallyComputedTokens + numExternalTokens) % group.tokensPerChunk = 0 ∨
            (status.numLocallyComputedTokens + numExternalTokens) / group.tokensPerChunk <
              (status.groupStates group.groupIdx).nextStoredChunkIdx
  | _ => True

/-- The last token of the chunk is not among those that the event loads for the request. -/
def ComputesItself (event : ConnectorEvent) (reqId : ReqId) (status : RequestOffloadState)
    (group : GroupOffloadConfig) (chunkIdx : Nat) : Prop :=
  ∀ blocks numExternalTokens, event = .updateStateAfterAlloc reqId blocks numExternalTokens →
    status.numLocallyComputedTokens + numExternalTokens < (chunkIdx + 1) * group.tokensPerChunk

/-- The pointer moves past no chunk that the request computes itself and that was not
offered. -/
def NoneSkipped (before after : OffloadingConnectorScheduler (Offered M))
    (event : ConnectorEvent) : Prop :=
  ∀ reqId earlier later, before.reqStatus.get? reqId = some earlier →
    after.reqStatus.get? reqId = some later →
    ∀ group ∈ before.config.fullAttentionGroups, ∀ chunkIdx,
      MovesPast earlier later group chunkIdx → ComputesItself event reqId earlier group chunkIdx →
      OfferedFor after.manager.offers later group chunkIdx ∨
        EndsInNull before.config later group chunkIdx

def Whole (state : RunState M) (event : ConnectorEvent) : Prop :=
  state.Permitted event ∧ LoadsWhole state event

omit [OffloadingManager M] in
/-- Tokens that end on a chunk boundary, or in a passed chunk, do not reach into a chunk that
they do not fill. -/
theorem ends_before_chunk {tokens tokensPerChunk pointer chunkIdx : Nat}
    (positive : 0 < tokensPerChunk)
    (ends : tokens % tokensPerChunk = 0 ∨ tokens / tokensPerChunk < pointer)
    (above : pointer ≤ chunkIdx) (own : tokens < (chunkIdx + 1) * tokensPerChunk) :
    tokens ≤ chunkIdx * tokensPerChunk := by
  have quotient : tokens / tokensPerChunk < chunkIdx + 1 := (Nat.div_lt_iff_lt_mul positive).mpr own
  rcases ends with whole | passed
  · calc tokens = tokens / tokensPerChunk * tokensPerChunk :=
        (Nat.div_mul_cancel (Nat.dvd_of_mod_eq_zero whole)).symm
      _ ≤ chunkIdx * tokensPerChunk := Nat.mul_le_mul_right _ (Nat.le_of_lt_succ quotient)
  · exact ((Nat.div_lt_iff_lt_mul positive).mp (passed.trans_le above)).le

theorem tokens_per_chunk_pos (config : SchedulerOffloadConfig) {group : GroupOffloadConfig}
    (member : group ∈ config.kvGroupConfigs) : 0 < group.tokensPerChunk := by
  have formed := config.well_formed group member
  rw [formed.chunk_eq]
  exact Nat.mul_pos formed.block_pos config.blocks_pos

theorem step_none_skipped {before after : RunState (Offered M)} {event : ConnectorEvent}
    (whole : LoadsWhole before event) (applied : before.apply event = .ok after) :
    NoneSkipped before.scheduler after.scheduler event := by
  intro reqId earlier later found foundLater group member chunkIdx moves itself
  have quiet : Follows pointerRule before.scheduler after.scheduler →
      OfferedFor after.scheduler.manager.offers later group chunkIdx ∨
        EndsInNull before.scheduler.config later group chunkIdx := fun follows =>
    absurd moves (follows_moves_past follows found foundLater group chunkIdx)
  cases event with
  | newRequest req =>
      cases applied
      have written : (before.scheduler.reqStatus.set req.requestId _).get? reqId = some later :=
        foundLater
      rw [OrderedMap.get_set] at written
      split at written
      · cases written
        exact absurd moves.2 (Nat.not_lt_zero _)
      · rw [found] at written
        cases written
        exact absurd moves.2 (Nat.not_lt.mpr moves.1)
  | requestChanged req =>
      cases applied
      exact quiet (request_changed_follows fun _ _ => ⟨rfl, rfl, fun _ => quiet_refl pointerRule _⟩)
  | getNumNewMatchedTokens reqId numComputedTokens =>
      obtain ⟨⟨answer, scheduler⟩, called, applied⟩ := bind_eq_ok.mp applied
      cases applied
      exact quiet (get_num_follows pointer_rule_free called)
  | updateStateAfterAlloc target blocks numExternalTokens =>
      obtain ⟨scheduler, called, applied⟩ := bind_eq_ok.mp applied
      cases applied
      have groupMember := (before.scheduler.config.mem_full_attention_groups.mp member).1
      obtain ⟨rfl, _, blockLevel, below⟩ :=
        load_moves_past called found foundLater groupMember moves
      have own := itself blocks numExternalTokens rfl
      have positive := tokens_per_chunk_pos before.scheduler.config groupMember
      have ends := whole earlier found blockLevel group member
      have reached := (lt_cdiv_iff positive).mp below
      rw [Nat.mul_comm] at reached
      exact absurd (ends_before_chunk positive ends moves.1 own) (Nat.not_le.mpr reached)
  | buildConnectorMeta output =>
      obtain ⟨⟨connectorMeta, scheduler⟩, called, applied⟩ := bind_eq_ok.mp applied
      cases applied
      exact build_moves_past called found foundLater member moves
  | updateConnectorOutput completedJobs =>
      obtain ⟨scheduler, called, applied⟩ := bind_eq_ok.mp applied
      cases applied
      exact quiet (update_connector_output_follows _ called)
  | requestFinished req =>
      obtain ⟨scheduler, called, applied⟩ := bind_eq_ok.mp applied
      cases applied
      exact quiet (request_finished_follows (fun _ _ => ⟨rfl, rfl, fun _ => quiet_refl pointerRule _⟩) called)
  | resetCache =>
      obtain ⟨scheduler, called, applied⟩ := bind_eq_ok.mp applied
      cases applied
      exact quiet (reset_cache_follows called)

end Runs

section Tails

abbrev TailRun := RunState (Offered (CPUOffloadingManager LruPolicy.LRUCachePolicy))

def tailStart : TailRun :=
  RunState.start (.fromSpec tailSpec) { mirrorLocal := false } (some 4)
    ⟨.new { numBlocks := 8 } (.new 8), {}⟩ ⟨fun _ => 0, 0⟩

/-- A request whose prompt of six tokens is stored with its partial tail. -/
def storing : Request := ⟨0, 7, 6, 0, [[0], [1], [2]], .unfinished, false, .all, none⟩

/-- A longer request that shares the six tokens. -/
def sharing (numComputedTokens : Nat) : Request :=
  ⟨1, 9, 9, numComputedTokens, [[0], [1], [2], [7]], .unfinished, false, .all, none⟩

/-- The prompt is stored, and the longer request finds its six tokens. -/
def hitEvents : List ConnectorEvent :=
  [.newRequest storing,
    .buildConnectorMeta
      { reqData := [⟨0, [[1, 2], [3, 4]], false⟩]
        newReqIds := [0]
        numScheduledTokens := OrderedMap.empty.set 0 6
        partialTailOffloads := OrderedMap.empty.set 0 [⟨1, 9, 6⟩] },
    .updateConnectorOutput [(0, 1), (1, 1)],
    .newRequest (sharing 0),
    .getNumNewMatchedTokens 1 0]

def tailLoad : ConnectorEvent :=
  .updateStateAfterAlloc 1 [[⟨11, false, false⟩, ⟨12, false, false⟩],
    [⟨0, true, false⟩, ⟨14, false, false⟩]] 6

/-- The load completes, and the request computes its last three tokens. -/
def computeEvents : List ConnectorEvent :=
  [.updateConnectorOutput [(2, 1)],
    .requestChanged (sharing 6),
    .buildConnectorMeta
      { reqData := [⟨1, [[11, 12, 13], [0, 14, 15]], false⟩]
        newReqIds := [1]
        numScheduledTokens := OrderedMap.empty.set 1 3 }]

/-- The pointer, the keys and the blocks of the longer request's full-attention group. -/
def view (state : TailRun) : Option (Nat × List OffloadKey × List Nat) :=
  (state.scheduler.reqStatus.get? 1).map fun status =>
    ((status.groupStates 0).nextStoredChunkIdx, (status.groupStates 0).offloadKeys,
      (status.groupStates 0).blockIds)

def offeredKeys (state : TailRun) : List OffloadKey :=
  state.scheduler.manager.offers.flatMap Offer.keys

/-- The load of six tokens moves the pointer past the second chunk, which ends after eight. -/
structure Cut (before after last : TailRun) : Prop where
  full : before.scheduler.config.fullAttentionGroups.map (fun group =>
    (group.groupIdx, group.tokensPerChunk)) = [(0, 4)]
  computed : (before.scheduler.reqStatus.get? 1).map (fun status =>
    status.numLocallyComputedTokens) = some 0
  viewBefore : view before = some (0, [⟨[1], 0⟩, ⟨[7], 0⟩], [])
  viewAfter : view after = some (2, [⟨[1], 0⟩, ⟨[7], 0⟩], [])
  notOffered : ⟨[7], 0⟩ ∉ offeredKeys after
  viewLast : view last = some (2, [⟨[1], 0⟩, ⟨[7], 0⟩], [11, 12, 13])
  neverOffered : ⟨[7], 0⟩ ∉ offeredKeys last

instance (before after last : TailRun) : Decidable (Cut before after last) :=
  decidable_of_iff
    ((before.scheduler.config.fullAttentionGroups.map (fun group =>
        (group.groupIdx, group.tokensPerChunk)) = [(0, 4)] ∧
      (before.scheduler.reqStatus.get? 1).map (fun status =>
        status.numLocallyComputedTokens) = some 0 ∧
      view before = some (0, [⟨[1], 0⟩, ⟨[7], 0⟩], []) ∧
      view after = some (2, [⟨[1], 0⟩, ⟨[7], 0⟩], [])) ∧
      ⟨[7], 0⟩ ∉ offeredKeys after ∧
      view last = some (2, [⟨[1], 0⟩, ⟨[7], 0⟩], [11, 12, 13]) ∧ ⟨[7], 0⟩ ∉ offeredKeys last)
    ⟨fun ⟨⟨full, computed, viewBefore, viewAfter⟩, notOffered, viewLast, neverOffered⟩ =>
      ⟨full, computed, viewBefore, viewAfter, notOffered, viewLast, neverOffered⟩,
      fun cut => ⟨⟨cut.full, cut.computed, cut.viewBefore, cut.viewAfter⟩, cut.notOffered,
        cut.viewLast, cut.neverOffered⟩⟩

theorem cut_skips {before after last : TailRun} (cut : Cut before after last) :
    ¬NoneSkipped before.scheduler after.scheduler tailLoad := by
  intro sound
  obtain ⟨earlier, found, seen⟩ := Option.map_eq_some_iff.mp cut.viewBefore
  obtain ⟨later, foundLater, seenLater⟩ := Option.map_eq_some_iff.mp cut.viewAfter
  have computed := cut.computed
  rw [found, Option.map_some, Option.some.injEq] at computed
  simp only [Prod.mk.injEq] at seen seenLater
  obtain ⟨group, single, same⟩ := List.map_eq_singleton_iff.mp cut.full
  obtain ⟨groupIdx, tokensPerChunk⟩ := Prod.mk.inj same
  have member : group ∈ before.scheduler.config.fullAttentionGroups :=
    single ▸ List.mem_singleton_self group
  have moves : MovesPast earlier later group 1 := by
    unfold MovesPast
    rw [groupIdx, seen.1, seenLater.1]
    decide
  have itself : ComputesItself tailLoad 1 earlier group 1 := by
    intro blocks numExternalTokens isLoad
    cases isLoad
    rw [computed, tokensPerChunk]
    decide
  rcases sound 1 earlier later found foundLater group member 1 moves itself with offered | null
  · obtain ⟨key, foundKey, offer, offerMember, _, inOffer⟩ := offered
    rw [groupIdx, seenLater.2.1] at foundKey
    cases foundKey
    exact cut.notOffered (List.mem_flatMap.mpr ⟨offer, offerMember, inOffer⟩)
  · unfold EndsInNull at null
    rw [groupIdx, seenLater.2.2] at null
    cases null

instance (state : TailRun) (event : ConnectorEvent) : Decidable (Whole state event) :=
  match event with
  | .updateStateAfterAlloc reqId _ numExternalTokens =>
      inferInstanceAs (Decidable (_ ∧ ∀ status ∈ state.scheduler.reqStatus.get? reqId,
        status.policy = .blockLevel → ∀ group ∈ state.scheduler.config.fullAttentionGroups,
          (status.numLocallyComputedTokens + numExternalTokens) % group.tokensPerChunk = 0 ∨
            (status.numLocallyComputedTokens + numExternalTokens) / group.tokensPerChunk <
              (status.groupStates group.groupIdx).nextStoredChunkIdx))
  | .newRequest _ | .requestChanged _ | .getNumNewMatchedTokens _ _ | .buildConnectorMeta _
  | .updateConnectorOutput _ | .requestFinished _ | .resetCache =>
      inferInstanceAs (Decidable (_ ∧ True))

/-- A request that shares four tokens only. -/
def branching (numComputedTokens : Nat) : Request :=
  ⟨1, 9, 9, numComputedTokens, [[0], [1], [3], [7]], .unfinished, false, .all, none⟩

/-- Its first chunk is loaded, and it computes its last five tokens. -/
def branchEvents : List ConnectorEvent :=
  hitEvents.take 3 ++
    [.newRequest (branching 0),
      .getNumNewMatchedTokens 1 0,
      .updateStateAfterAlloc 1 [[⟨11, false, false⟩], [⟨14, false, false⟩]] 4,
      .updateConnectorOutput [(2, 1)],
      .requestChanged (branching 4),
      .buildConnectorMeta
        { reqData := [⟨1, [[11, 12, 13], [14, 15, 16]], false⟩]
          newReqIds := [1]
          numScheduledTokens := OrderedMap.empty.set 1 5 }]

end Tails

end KvOffload.StoreOfferRuns
