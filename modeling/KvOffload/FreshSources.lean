import KvOffload.RecordedBlocks
import KvOffload.SourceReuse
import KvOffload.StoreTransfer

/-!
# Whether a store reads the blocks of its chunks

A store of a chunk names the blocks that the connector recorded for it. Between the recording
and the store the scheduler may give such a block to other tokens. A step that finds the block
from the store pointer on drops the recorded id; below the pointer it stays, and the mirror
offers such chunks again.
-/

namespace KvOffload.FreshSources

open KvOffload KvOffload.Base KvOffload.ConnectorConfig KvOffload.ConnectorRequests
open KvOffload.ManagerInterface KvOffload.ConnectorScheduler KvOffload.ConnectorStores
open KvOffload.JobBooks KvOffload.ConnectorMoves KvOffload.ConnectorBuilds KvOffload.ConnectorRuns
open KvOffload.RequestRecords KvOffload.FlushIds KvOffload.RecordedBlocks
open KvOffload.StoreTransfer
open KvOffload.SourceReuse (NoStep)

set_option autoImplicit false

variable {M : Type}

/-- The id that is recorded at a place of the block table. -/
def recordedAt (scheduler : OffloadingConnectorScheduler M) (reqId : ReqId)
    (groupIdx index : Nat) : Option Nat :=
  (scheduler.reqStatus.get? reqId).bind fun status =>
    (status.groupStates groupIdx).blockIds[index]?

/-- The block that is recorded at a place is given to other tokens. -/
def GivenAt (scheduler : OffloadingConnectorScheduler M) (given : Finset Nat) (reqId : ReqId)
    (groupIdx index : Nat) : Prop :=
  ∃ blockId ∈ recordedAt scheduler reqId groupIdx index, blockId ∈ given

instance (scheduler : OffloadingConnectorScheduler M) (given : Finset Nat) (reqId : ReqId)
    (groupIdx index : Nat) : Decidable (GivenAt scheduler given reqId groupIdx index) :=
  inferInstanceAs (Decidable (∃ blockId ∈ _, _ ∈ _))

/-- The place lies below the store pointer of its group. -/
def BelowPointer (scheduler : OffloadingConnectorScheduler M) (reqId : ReqId)
    (groupIdx index : Nat) : Prop :=
  ∃ status ∈ scheduler.reqStatus.get? reqId,
    index < (status.groupStates groupIdx).nextStoredChunkIdx * scheduler.config.blocksPerChunk

instance (scheduler : OffloadingConnectorScheduler M) (reqId : ReqId) (groupIdx index : Nat) :
    Decidable (BelowPointer scheduler reqId groupIdx index) :=
  inferInstanceAs (Decidable (∃ status ∈ _, _ < _))

/-- The step records the blocks of the request anew. -/
def Resumes (output : SchedulerOutput) (reqId : ReqId) : Prop :=
  ∃ data ∈ output.reqData, data.reqId = reqId ∧ data.preempted = true

instance (output : SchedulerOutput) (reqId : ReqId) : Decidable (Resumes output reqId) :=
  inferInstanceAs (Decidable (∃ data ∈ _, _ ∧ _))

/-- The run with what became of the recorded blocks: the places whose block was given to other
tokens after it was recorded, those of them that lay below the store pointer then, the requests
that were preempted, and those that a step has listed as finished. -/
structure Watch (M : Type) where
  run : RunState M
  stale : ReqId → Nat → Nat → Bool := fun _ _ _ => false
  missed : ReqId → Nat → Nat → Bool := fun _ _ _ => false
  preempted : Finset ReqId := ∅
  ended : Finset ReqId := ∅

/-- `given` are the blocks that a step gives to other tokens. -/
inductive WatchEvent where
  | connector (event : ConnectorEvent)
  | step (output : SchedulerOutput) (given : Finset Nat)

namespace Watch

variable (watch : Watch M)

/-- Nothing is recorded for the request any more. -/
def cleared (reqId : ReqId) : Watch M :=
  { watch with
    stale := fun other groupIdx index =>
      if other = reqId then false else watch.stale other groupIdx index
    missed := fun other groupIdx index =>
      if other = reqId then false else watch.missed other groupIdx index
    preempted := watch.preempted.erase reqId }

def note (run : RunState M) : ConnectorEvent → Watch M
  | .getNumNewMatchedTokens reqId _ => { watch.cleared reqId with run := run }
  | _ => { watch with run := run }

def stepped (run : RunState M) (output : SchedulerOutput) (given : Finset Nat) : Watch M where
  run := run
  stale reqId groupIdx index := decide (¬Resumes output reqId ∧
    (watch.stale reqId groupIdx index = true ∨ GivenAt watch.run.scheduler given reqId groupIdx
      index))
  missed reqId groupIdx index := decide (¬Resumes output reqId ∧
    (watch.missed reqId groupIdx index = true ∨
      GivenAt watch.run.scheduler given reqId groupIdx index ∧
        BelowPointer watch.run.scheduler reqId groupIdx index))
  preempted := watch.preempted.filter (fun reqId => ¬Resumes output reqId) ∪
    output.preemptedReqIds.toFinset
  ended := watch.ended ∪ output.finishedReqIds.toFinset

def start (config : SchedulerOffloadConfig) (settings : ConnectorSettings)
    (mambaAlignSize : Option Nat) (manager : M) (clock : StaleHitLadder.Clock) : Watch M where
  run := RunState.start config settings mambaAlignSize manager clock

/-- The requests that are preempted or finished, or become so with the step. -/
def unowned (output : SchedulerOutput) : Finset ReqId :=
  watch.preempted ∪ watch.ended ∪ (output.preemptedReqIds ++ output.finishedReqIds).toFinset

/-- A live request keeps the recorded blocks of its full-attention groups. -/
def Owned (output : SchedulerOutput) (given : Finset Nat) : Prop :=
  ∀ entry ∈ watch.run.scheduler.reqStatus.entries, entry.1 ∉ watch.unowned output →
    ∀ group ∈ watch.run.scheduler.config.kvGroupConfigs,
      group.slidingWindowSizeInChunks.isSome = false →
        ∀ blockId ∈ (entry.2.groupStates group.groupIdx).blockIds, blockId ∉ given

/-- A step gives away only what it hands out, and serves no request that an earlier step has
listed as finished. -/
def Permitted : WatchEvent → Prop
  | .connector event => NoStep event ∧ watch.run.Permitted event
  | .step output given => watch.run.Permitted (.buildConnectorMeta output) ∧
      given ⊆ handedOut watch.run.scheduler output ∧ watch.Owned output given ∧
      ∀ reqId ∈ output.numScheduledTokens.keys ++ output.finishedReqIds, reqId ∉ watch.ended

end Watch

def Watch.apply [OffloadingManager M] (watch : Watch M) : WatchEvent → Except PyError (Watch M)
  | .connector event => do
      let run ← watch.run.apply event
      .ok (watch.note run event)
  | .step output given => do
      let run ← watch.run.apply (.buildConnectorMeta output)
      .ok (watch.stepped run output given)

instance (watch : Watch M) (event : WatchEvent) : Decidable (watch.Permitted event) :=
  match event with
  | .connector _ => inferInstanceAs (Decidable (_ ∧ _))
  | .step _ _ => inferInstanceAs (Decidable (_ ∧ (_ : Finset Nat) ⊆ _ ∧
      (∀ entry ∈ _, _ ∉ _ → ∀ group ∈ _, _ = _ → ∀ blockId ∈ _, _ ∉ _) ∧ ∀ reqId ∈ _, _ ∉ _))

/-- A recorded block that was given away is one of a window group that lay below the store pointer
then, or belongs to a request that has lost its blocks. -/
structure WatchInv (watch : Watch M) : Prop where
  tracked : TrackedIn watch.run.known (desk watch.run.scheduler)
  known : ∀ reqId groupIdx index, watch.stale reqId groupIdx index = true →
    reqId ∈ watch.run.known
  inside : ∀ reqId status, watch.run.scheduler.reqStatus.get? reqId = some status →
    ∀ group ∈ watch.run.scheduler.config.kvGroupConfigs, ∀ index,
      watch.stale reqId group.groupIdx index = true →
        index < (status.groupStates group.groupIdx).blockIds.length
  guarded : ∀ reqId status, watch.run.scheduler.reqStatus.get? reqId = some status →
    ∀ group ∈ watch.run.scheduler.config.kvGroupConfigs, ∀ index blockId,
      (status.groupStates group.groupIdx).blockIds[index]? = some blockId → blockId ≠ 0 →
        watch.stale reqId group.groupIdx index = true →
          if group.slidingWindowSizeInChunks.isSome = true then
            watch.missed reqId group.groupIdx index = true
          else reqId ∈ watch.preempted ∨ reqId ∈ watch.ended

section Events

variable [OffloadingManager M] {watch : Watch M}

theorem event_tracked_in {run next : RunState M} {event : ConnectorEvent}
    (tracked : TrackedIn run.known (desk run.scheduler)) (permitted : run.Permitted event)
    (applied : run.apply event = .ok next) : TrackedIn next.known (desk next.scheduler) := by
  refine (@event_rule M _ True (fun _ _ => True) _ next event permitted
    (served_only_lax run event) ?_ ?_ ?_ ?_ ?_ tracked trivial applied).1
  · exact fun _ _ _ _ _ => trivial
  · exact fun _ _ _ _ _ => trivial
  · exact fun _ _ _ _ _ _ => trivial
  · exact fun _ _ _ _ _ _ _ _ _ _ => trivial
  · exact fun _ _ _ _ _ _ => trivial

theorem event_known {run next : RunState M} {event : ConnectorEvent}
    (applied : run.apply event = .ok next) : run.known ⊆ next.known := by
  cases event with
  | newRequest req =>
      cases applied
      exact Finset.subset_insert _ _
  | requestChanged req =>
      cases applied
      exact subset_rfl
  | requestFinished req =>
      obtain ⟨_, _, same⟩ := bind_eq_ok.mp applied
      cases same
      exact Finset.subset_insert _ _
  | getNumNewMatchedTokens _ _ =>
      obtain ⟨_, _, same⟩ := bind_eq_ok.mp applied
      cases same
      exact subset_rfl
  | updateStateAfterAlloc _ _ _ =>
      obtain ⟨_, _, same⟩ := bind_eq_ok.mp applied
      cases same
      exact subset_rfl
  | buildConnectorMeta _ =>
      obtain ⟨_, _, same⟩ := bind_eq_ok.mp applied
      cases same
      exact subset_rfl
  | updateConnectorOutput _ =>
      obtain ⟨_, _, same⟩ := bind_eq_ok.mp applied
      cases same
      exact subset_rfl
  | resetCache =>
      obtain ⟨_, _, same⟩ := bind_eq_ok.mp applied
      cases same
      exact subset_rfl

omit [OffloadingManager M] in
/-- The recorded blocks stay as they are. -/
theorem kept_inv {run : RunState M} (inv : WatchInv watch)
    (tracked : TrackedIn run.known (desk run.scheduler))
    (known : watch.run.known ⊆ run.known)
    (follows : Follows (tableRule False) watch.run.scheduler run.scheduler) :
    WatchInv { watch with run := run } where
  tracked := tracked
  known reqId groupIdx index stale := known (inv.known reqId groupIdx index stale)
  inside := by
    intro reqId status found group member index stale
    obtain ⟨earlier, foundEarlier, _, same⟩ := follows.requests reqId status found
    rw [same]
    rw [follows.config] at member
    exact inv.inside reqId earlier foundEarlier group member index stale
  guarded := by
    intro reqId status found group member index blockId recorded live stale
    obtain ⟨earlier, foundEarlier, _, same⟩ := follows.requests reqId status found
    rw [same] at recorded
    rw [follows.config] at member
    exact inv.guarded reqId earlier foundEarlier group member index blockId recorded live stale

theorem new_request_inv {req : Request} (inv : WatchInv watch)
    (unknown : req.requestId ∉ watch.run.known) {run : RunState M}
    (tracked : TrackedIn run.known (desk run.scheduler))
    (applied : watch.run.apply (.newRequest req) = .ok run) :
    WatchInv { watch with run := run } := by
  have known := event_known applied
  cases applied
  refine ⟨tracked, fun reqId groupIdx index stale =>
    known (inv.known reqId groupIdx index stale), ?_, ?_⟩
  · intro reqId status found group member index stale
    have written : (watch.run.scheduler.reqStatus.set req.requestId _).get? reqId =
      some status := found
    rw [OrderedMap.get_set] at written
    split at written
    · rename_i same
      exact absurd (same ▸ inv.known reqId _ _ stale) unknown
    · exact inv.inside reqId status written group member index stale
  · intro reqId status found group member index blockId recorded live stale
    have written : (watch.run.scheduler.reqStatus.set req.requestId _).get? reqId =
      some status := found
    rw [OrderedMap.get_set] at written
    split at written
    · rename_i same
      exact absurd (same ▸ inv.known reqId _ _ stale) unknown
    · exact inv.guarded reqId status written group member index blockId recorded live stale

theorem lookup_inv {reqId : ReqId} {numComputedTokens : Nat} (inv : WatchInv watch)
    {run : RunState M} (tracked : TrackedIn run.known (desk run.scheduler))
    (applied : watch.run.apply (.getNumNewMatchedTokens reqId numComputedTokens) = .ok run) :
    WatchInv { watch.cleared reqId with run := run } := by
  have known := event_known applied
  obtain ⟨⟨answer, scheduler⟩, called, same⟩ := bind_eq_ok.mp applied
  cases same
  obtain ⟨config, cleared, requests, empty⟩ := get_num_clears called
  have others : ∀ other groupIdx index,
      (watch.cleared reqId).stale other groupIdx index = true →
        other ≠ reqId ∧ watch.stale other groupIdx index = true := by
    intro other groupIdx index stale
    simpa [Watch.cleared] using stale
  refine ⟨tracked, fun other groupIdx index stale =>
    known (inv.known other groupIdx index (others other groupIdx index stale).2), ?_, ?_⟩
  · intro other status found group member index stale
    obtain ⟨apart, stale⟩ := others other _ index stale
    rw [requests, OrderedMap.get_set_of_ne _ _ apart] at found
    rw [config] at member
    exact inv.inside other status found group member index stale
  · intro other status found group member index blockId recorded live stale
    obtain ⟨apart, stale⟩ := others other _ index stale
    rw [requests, OrderedMap.get_set_of_ne _ _ apart] at found
    rw [config] at member
    have before := inv.guarded other status found group member index blockId recorded live stale
    simpa [Watch.cleared, apart] using before

theorem connector_inv {event : ConnectorEvent} {run : RunState M} (inv : WatchInv watch)
    (noStep : NoStep event) (permitted : watch.run.Permitted event)
    (applied : watch.run.apply event = .ok run) : WatchInv (watch.note run event) := by
  have tracked := event_tracked_in inv.tracked permitted applied
  have known := event_known applied
  cases event with
  | newRequest req => exact new_request_inv inv permitted tracked applied
  | requestChanged req =>
      cases applied
      exact kept_inv inv tracked known
        (request_changed_follows fun _ _ => ⟨nofun, fun _ => rfl⟩)
  | getNumNewMatchedTokens reqId _ => exact lookup_inv inv tracked applied
  | updateStateAfterAlloc _ _ _ =>
      obtain ⟨_, called, same⟩ := bind_eq_ok.mp applied
      cases same
      exact kept_inv inv tracked known (update_state_after_alloc_follows
        (fun _ _ _ => keeps_skip_hit_chunks _ _ _ _) called)
  | buildConnectorMeta _ => exact absurd noStep id
  | updateConnectorOutput _ =>
      obtain ⟨_, called, same⟩ := bind_eq_ok.mp applied
      cases same
      exact kept_inv inv tracked known (update_connector_output_follows _ called)
  | requestFinished req =>
      obtain ⟨_, called, same⟩ := bind_eq_ok.mp applied
      cases same
      exact kept_inv inv tracked known
        (request_finished_follows (fun _ _ => ⟨nofun, fun _ => rfl⟩) called)
  | resetCache =>
      obtain ⟨_, called, same⟩ := bind_eq_ok.mp applied
      cases same
      exact kept_inv inv tracked known (reset_cache_follows called)

end Events

section Steps

variable [OffloadingManager M] {watch : Watch M} {run : RunState M} {output : SchedulerOutput}
  {given : Finset Nat} {updated : OffloadingConnectorScheduler M}

omit [OffloadingManager M] in
theorem stepped_stale {reqId : ReqId} {groupIdx index : Nat} :
    (watch.stepped run output given).stale reqId groupIdx index = true ↔ ¬Resumes output reqId ∧
      (watch.stale reqId groupIdx index = true ∨
        GivenAt watch.run.scheduler given reqId groupIdx index) :=
  decide_eq_true_iff

omit [OffloadingManager M] in
theorem stepped_missed {reqId : ReqId} {groupIdx index : Nat} :
    (watch.stepped run output given).missed reqId groupIdx index = true ↔ ¬Resumes output reqId ∧
      (watch.missed reqId groupIdx index = true ∨
        GivenAt watch.run.scheduler given reqId groupIdx index ∧
          BelowPointer watch.run.scheduler reqId groupIdx index) :=
  decide_eq_true_iff

omit [OffloadingManager M] in
/-- A request that goes on keeps its place in the block table of the step. -/
theorem updated_request (updates : updateReqStates watch.run.scheduler output = .ok updated)
    {reqId : ReqId} {later : RequestOffloadState}
    (found : updated.reqStatus.get? reqId = some later) (goesOn : ¬Resumes output reqId) :
    ∃ status, watch.run.scheduler.reqStatus.get? reqId = some status ∧
      Guarded watch.run.scheduler.config (handedOut watch.run.scheduler output) status later := by
  have tracked := tracked_of_status found
  rw [update_req_states_desk updates, desk_requests] at tracked
  obtain ⟨status, foundStatus, _⟩ := Option.map_eq_some_iff.mp tracked
  obtain ⟨same, foundSame, guarded⟩ := update_req_states_guards updates foundStatus (by
    intro data member own
    by_contra preempted
    exact goesOn ⟨data, member, own, by simpa using preempted⟩)
  rw [found] at foundSame
  cases foundSame
  exact ⟨status, foundStatus, guarded⟩

omit [OffloadingManager M] in
theorem stale_inside (inv : WatchInv watch) {reqId : ReqId} {status : RequestOffloadState}
    (found : watch.run.scheduler.reqStatus.get? reqId = some status)
    {group : GroupOffloadConfig} (member : group ∈ watch.run.scheduler.config.kvGroupConfigs)
    {index : Nat}
    (stale : (watch.stepped run output given).stale reqId group.groupIdx index = true) :
    ∃ blockId, (status.groupStates group.groupIdx).blockIds[index]? = some blockId ∧
      (watch.stale reqId group.groupIdx index = true ∨ blockId ∈ given) := by
  obtain ⟨_, old | ⟨blockId, recorded, isGiven⟩⟩ := stepped_stale.mp stale
  · exact ⟨_, List.getElem?_eq_getElem (inv.inside reqId status found group member index old),
      .inl old⟩
  · rw [recordedAt, found] at recorded
    exact ⟨blockId, recorded, .inr isGiven⟩

omit [OffloadingManager M] in
/-- What is still recorded of a block that was given away was recorded before the step. -/
theorem stale_recorded (inv : WatchInv watch)
    (updates : updateReqStates watch.run.scheduler output = .ok updated) {reqId : ReqId}
    {later : RequestOffloadState} (found : updated.reqStatus.get? reqId = some later)
    {group : GroupOffloadConfig} (member : group ∈ watch.run.scheduler.config.kvGroupConfigs)
    {index : Nat}
    (stale : (watch.stepped run output given).stale reqId group.groupIdx index = true) :
    index < (later.groupStates group.groupIdx).blockIds.length ∧
      ∀ blockId, (later.groupStates group.groupIdx).blockIds[index]? = some blockId →
        blockId ≠ 0 → ∃ status, watch.run.scheduler.reqStatus.get? reqId = some status ∧
          later.req = status.req ∧
          (status.groupStates group.groupIdx).blockIds[index]? = some blockId ∧
          (watch.stale reqId group.groupIdx index = true ∨ blockId ∈ given) ∧
          (group.slidingWindowSizeInChunks.isSome = true →
            (status.groupStates group.groupIdx).nextStoredChunkIdx *
              watch.run.scheduler.config.blocksPerChunk ≤ index →
              blockId ∉ handedOut watch.run.scheduler output) := by
  obtain ⟨goesOn, _⟩ := stepped_stale.mp stale
  obtain ⟨status, foundStatus, guarded⟩ := updated_request updates found goesOn
  obtain ⟨old, recorded, gone⟩ := stale_inside inv foundStatus member stale
  rcases guarded.blocks group member index old recorded with ⟨kept, spared⟩ | ⟨_, zeroed⟩
  · refine ⟨(List.getElem?_eq_some_iff.mp kept).1, fun blockId isBlock _ => ?_⟩
    cases isBlock.symm.trans kept
    exact ⟨status, foundStatus, guarded.req, recorded, gone, spared⟩
  · refine ⟨(List.getElem?_eq_some_iff.mp zeroed).1, fun blockId isBlock live => ?_⟩
    cases isBlock.symm.trans zeroed
    exact absurd rfl live

omit [OffloadingManager M] in
/-- The step keeps the invariant for the block table that it records. -/
theorem updated_guarded (inv : WatchInv watch)
    (handed : given ⊆ handedOut watch.run.scheduler output) (owned : watch.Owned output given)
    (updates : updateReqStates watch.run.scheduler output = .ok updated) {reqId : ReqId}
    {later : RequestOffloadState} (found : updated.reqStatus.get? reqId = some later)
    {group : GroupOffloadConfig} (member : group ∈ watch.run.scheduler.config.kvGroupConfigs)
    {index blockId : Nat}
    (recorded : (later.groupStates group.groupIdx).blockIds[index]? = some blockId)
    (live : blockId ≠ 0)
    (stale : (watch.stepped run output given).stale reqId group.groupIdx index = true) :
    if group.slidingWindowSizeInChunks.isSome = true then
      (watch.stepped run output given).missed reqId group.groupIdx index = true
    else reqId ∈ (watch.stepped run output given).preempted ∨
      reqId ∈ (watch.stepped run output given).ended := by
  obtain ⟨goesOn, _⟩ := stepped_stale.mp stale
  obtain ⟨status, foundStatus, _, before, gone, spared⟩ :=
    (stale_recorded inv updates found member stale).2 blockId recorded live
  have stays : reqId ∈ watch.preempted ∨ reqId ∈ watch.ended →
      reqId ∈ (watch.stepped run output given).preempted ∨
        reqId ∈ (watch.stepped run output given).ended := by
    refine Or.imp (fun lost => ?_) fun isOver => Finset.mem_union_left _ isOver
    exact Finset.mem_union_left _ (Finset.mem_filter.mpr ⟨lost, goesOn⟩)
  by_cases old : watch.stale reqId group.groupIdx index = true
  · have guarded := inv.guarded reqId status foundStatus group member index blockId before live old
    split
    · rename_i window
      rw [if_pos window] at guarded
      exact stepped_missed.mpr ⟨goesOn, .inl guarded⟩
    · rename_i full
      rw [if_neg full] at guarded
      exact stays guarded
  · have isGiven := gone.resolve_left old
    split
    · rename_i window
      have givenHere : GivenAt watch.run.scheduler given reqId group.groupIdx index :=
        ⟨blockId, by rwa [recordedAt, foundStatus], isGiven⟩
      refine stepped_missed.mpr ⟨goesOn, .inr ⟨givenHere, status, foundStatus, ?_⟩⟩
      by_contra above
      exact spared window (Nat.not_lt.mp above) (handed isGiven)
    · rename_i full
      by_contra lost
      refine owned (reqId, status) ((OrderedMap.get_eq_some_iff _ _ _).mp foundStatus) ?_ group
        member (by simpa using full) blockId (List.mem_of_getElem? before) isGiven
      intro unowned
      simp only [Watch.unowned, Finset.mem_union, List.mem_toFinset, List.mem_append] at unowned
      rcases unowned with earlier | preempted | finished
      · exact lost (stays earlier)
      · exact lost (.inl (Finset.mem_union_right _ (List.mem_toFinset.mpr preempted)))
      · exact lost (.inr (Finset.mem_union_right _ (List.mem_toFinset.mpr finished)))

theorem step_inv (inv : WatchInv watch) (permitted : watch.Permitted (.step output given))
    (applied : watch.run.apply (.buildConnectorMeta output) = .ok run) :
    WatchInv (watch.stepped run output given) := by
  obtain ⟨isPermitted, handed, owned, _⟩ := permitted
  have tracked := event_tracked_in inv.tracked isPermitted applied
  have known := event_known applied
  obtain ⟨⟨connectorMeta, after⟩, built, same⟩ := bind_eq_ok.mp applied
  obtain ⟨updated, _, _, _, updates, _, _, _, _, config, kept⟩ := build_stores_made built
  cases same
  refine ⟨tracked, ?_, ?_, ?_⟩
  · intro reqId groupIdx index stale
    obtain ⟨_, old | ⟨blockId, recorded, _⟩⟩ := stepped_stale.mp stale
    · exact known (inv.known reqId groupIdx index old)
    · obtain ⟨status, found, _⟩ := Option.bind_eq_some_iff.mp recorded
      exact known (inv.tracked reqId _ (tracked_of_status found))
  · intro reqId status found group member index stale
    obtain ⟨earlier, foundEarlier, _, same⟩ := kept reqId status found
    rw [same]
    exact (stale_recorded inv updates foundEarlier (config ▸ member) stale).1
  · intro reqId status found group member index blockId recorded live stale
    obtain ⟨earlier, foundEarlier, _, same⟩ := kept reqId status found
    rw [same] at recorded
    exact updated_guarded inv handed owned updates foundEarlier (config ▸ member) recorded live
      stale

omit [OffloadingManager M] in
theorem start_inv (config : SchedulerOffloadConfig) (settings : ConnectorSettings)
    (mambaAlignSize : Option Nat) (manager : M) (clock : StaleHitLadder.Clock) :
    WatchInv (Watch.start config settings mambaAlignSize manager clock) where
  tracked _ _ found := by cases found
  known _ _ _ stale := by cases stale
  inside _ _ found := by cases found
  guarded _ _ found := by cases found

theorem reached_inv {config : SchedulerOffloadConfig} {settings : ConnectorSettings}
    {mambaAlignSize : Option Nat} {manager : M} {clock : StaleHitLadder.Clock} {watch : Watch M}
    (reaches : EventRuns.Reaches Watch.apply Watch.Permitted
      (Watch.start config settings mambaAlignSize manager clock) watch) : WatchInv watch := by
  refine EventRuns.reaches_invariant ?_ (start_inv config settings mambaAlignSize manager clock)
    reaches
  intro before event after inv permitted applied
  cases event with
  | connector event =>
      obtain ⟨run, called, same⟩ := bind_eq_ok.mp applied
      cases same
      exact connector_inv inv permitted.1 permitted.2 called
  | step output given =>
      obtain ⟨run, called, same⟩ := bind_eq_ok.mp applied
      cases same
      exact step_inv inv permitted called

end Steps

section Stores

variable [OffloadingManager M] {watch next : Watch M} {output : SchedulerOutput}
  {given : Finset Nat}

/-- The block still holds what was recorded at its place; or only this step gives it away, and
flushes the job of the finished request. -/
def Holds (watch next : Watch M) (flushed : Finset JobId) (jobId : JobId) (reqId : ReqId)
    (req : Request) (group : GroupOffloadConfig) (index : Nat) : Prop :=
  next.stale reqId group.groupIdx index = false ∨
    watch.stale reqId group.groupIdx index = false ∧ req.isFinished = true ∧
      group.slidingWindowSizeInChunks.isSome = false ∧ jobId ∈ flushed

/-- A job reads what was recorded for each chunk that it stores, window blocks that were given away
below the store pointer aside. -/
def JobReads (watch next : Watch M) (flushed : Finset JobId) (jobId : JobId)
    (transfer : TransferJob) (offering : Offering) (keysToStore : List OffloadKey) : Prop :=
  ∀ group ∈ offering.config.kvGroupConfigs, ∀ chunk ∈ acceptedChunks offering group keysToStore,
    ∀ block ∈ offering.chunkBlocks group chunk.1, block.2 ≠ 0 →
      (group.slidingWindowSizeInChunks.isSome = true →
        next.missed transfer.reqId group.groupIdx block.1 = false) →
      Holds watch next flushed jobId transfer.reqId offering.status.req group block.1

/-- Each store job that the step makes of a request that keeps its blocks, the jobs of partial
tails aside, reads the blocks of its chunks. -/
def StoresRead (watch next : Watch M) (output : SchedulerOutput)
    (connectorMeta : OffloadingConnectorMetadata) : Prop :=
  ∃ begun tails, beforeTails watch.run.scheduler output = .ok begun ∧
    buildPartialTailStoreJobs ⟨begun, 0, OrderedMap.empty⟩ output = .ok tails ∧
    ∀ jobId transfer, connectorMeta.storeJobs.get? jobId = some transfer →
      tails.storeJobs.get? jobId = some transfer ∨ ∃ offering prepared,
        Emitted output tails jobId transfer offering prepared ∧
          (transfer.reqId ∉ next.preempted →
            JobReads watch next connectorMeta.jobsToFlush jobId transfer offering
              prepared.keysToStore)

omit [OffloadingManager M] in
theorem chunk_block_recorded {offering : Offering} {group : GroupOffloadConfig} {chunkIdx : Nat}
    {block : Nat × Nat} (member : block ∈ offering.chunkBlocks group chunkIdx)
    (live : block.2 ≠ 0) :
    (offering.state group).blockIds[block.1]? = some block.2 := by
  obtain ⟨index, _, rfl⟩ := List.mem_map.mp member
  dsimp only at live ⊢
  rw [List.getD_eq_getElem?_getD] at live ⊢
  cases found : (offering.state group).blockIds[chunkIdx * offering.config.blocksPerChunk + index]?
    with
  | none =>
      rw [found] at live
      exact absurd rfl live
  | some blockId => rfl

omit [OffloadingManager M] in
theorem accepted_block_deferred {offering : Offering} {keysToStore : List OffloadKey}
    {group : GroupOffloadConfig} (member : group ∈ offering.config.kvGroupConfigs)
    (full : group.slidingWindowSizeInChunks.isSome = false) {chunk : Nat × OffloadKey × Nat}
    (accepted : chunk ∈ acceptedChunks offering group keysToStore) {block : Nat × Nat}
    (inChunk : block ∈ offering.chunkBlocks group chunk.1) (live : block.2 ≠ 0) :
    block.2 ∈ deferredIds offering keysToStore := by
  refine List.mem_flatMap.mpr ⟨group, List.mem_filter.mpr ⟨member, ?_⟩, ?_⟩
  · simpa using full
  · refine List.mem_map_of_mem (List.mem_filter.mpr ⟨?_, by simpa using live⟩)
    exact List.mem_flatMap.mpr ⟨chunk, accepted, inChunk⟩

/-- In every run a store of a request that keeps its blocks reads what was recorded for each of
its chunks, window blocks that were given away below the store pointer aside. -/
theorem stores_read_their_chunks {config : SchedulerOffloadConfig} {settings : ConnectorSettings}
    {mambaAlignSize : Option Nat} {manager : M} {clock : StaleHitLadder.Clock}
    (reaches : EventRuns.Reaches Watch.apply Watch.Permitted
      (Watch.start config settings mambaAlignSize manager clock) watch)
    (permitted : watch.Permitted (.step output given))
    (applied : watch.apply (.step output given) = .ok next)
    {connectorMeta : OffloadingConnectorMetadata} {after : OffloadingConnectorScheduler M}
    (built : buildConnectorMeta watch.run.scheduler output = .ok (connectorMeta, after)) :
    StoresRead watch next output connectorMeta := by
  have inv := reached_inv reaches
  obtain ⟨isPermitted, handed, owned, served⟩ := permitted
  obtain ⟨run, _, same⟩ := bind_eq_ok.mp applied
  cases same
  obtain ⟨updated, begun, tails, stores, updates, began, tailed, made, flush, sameConfig, _⟩ :=
    build_stores_made built
  refine ⟨begun, tails, began, tailed, fun jobId transfer found => ?_⟩
  refine (made.made jobId transfer found).imp_right ?_
  rintro ⟨offering, prepared, emitted, store⟩
  refine ⟨offering, prepared, emitted, fun keeps group member chunk accepted block inChunk live
    caught => ?_⟩
  unfold Holds
  by_cases stale : (watch.stepped run output given).stale transfer.reqId group.groupIdx block.1 =
    true
  swap
  · exact .inl (by simpa using stale)
  have recorded := chunk_block_recorded inChunk live
  obtain ⟨later, foundLater, sameReq, sameBlocks⟩ := store.recorded
  have known : group ∈ watch.run.scheduler.config.kvGroupConfigs := by
    rw [← update_req_states_config updates, ← store.config]
    exact member
  rw [Offering.state, sameBlocks] at recorded
  have guarded := updated_guarded inv handed owned updates foundLater known recorded live stale
  obtain ⟨goesOn, _⟩ := stepped_stale.mp stale
  obtain ⟨status, foundStatus, req, before, gone, _⟩ :=
    (stale_recorded inv updates foundLater known stale).2 block.2 recorded live
  obtain ⟨earlier, rest, _, walk, _, _⟩ := emitted
  have isServed := served transfer.reqId (by
    rw [walk]
    exact List.mem_append_right _ List.mem_cons_self)
  split at guarded
  · rename_i window
    rw [caught window] at guarded
    cases guarded
  · rename_i full
    have full : group.slidingWindowSizeInChunks.isSome = false := by simpa using full
    have listed : transfer.reqId ∈ output.finishedReqIds := by
      have isOver := Finset.mem_union.mp (guarded.resolve_left keeps)
      exact List.mem_toFinset.mp (isOver.resolve_left isServed)
    have fresh : watch.stale transfer.reqId group.groupIdx block.1 = false := by
      by_contra old
      have lost := inv.guarded _ status foundStatus group known _ _ before live (by simpa using old)
      rw [full, if_neg Bool.false_ne_true] at lost
      refine keeps (Finset.mem_union_left _ (Finset.mem_filter.mpr
        ⟨lost.resolve_right isServed, goesOn⟩))
    have finished : offering.status.req.isFinished = true := by
      rw [sameReq trivial, req]
      exact isPermitted _ listed status foundStatus
    refine .inr ⟨fresh, finished, full, ?_⟩
    rw [flush]
    refine store.late finished block.2 (accepted_block_deferred member full accepted inChunk live)
      (handed (gone.resolve_left (by simp [fresh])))

/-- A store job of the step reads a block at its place in a chunk that was given to other tokens
after it was recorded there. -/
def ReadsGiven (watch next : Watch M) (output : SchedulerOutput) : Prop :=
  ∃ begun tails jobId transfer offering prepared,
    beforeTails watch.run.scheduler output = .ok begun ∧
    buildPartialTailStoreJobs ⟨begun, 0, OrderedMap.empty⟩ output = .ok tails ∧
    Emitted output tails jobId transfer offering prepared ∧
    ∃ group ∈ offering.config.kvGroupConfigs,
      ∃ chunk ∈ acceptedChunks offering group prepared.keysToStore,
        ∃ block ∈ offering.chunkBlocks group chunk.1, block.2 ≠ 0 ∧
          next.stale transfer.reqId group.groupIdx block.1 = true

omit [OffloadingManager M] in
theorem source_block_of_spec {offering : Offering} {keysToStore : List OffloadKey}
    {spec : GPULoadStoreSpec} (made : offering.storeSpec keysToStore = .ok spec) {blockId : Nat}
    (member : blockId ∈ spec.blockIds) : ∃ group ∈ offering.config.kvGroupConfigs,
      ∃ chunk ∈ acceptedChunks offering group keysToStore,
        ∃ block ∈ offering.chunkBlocks group chunk.1, block.2 ≠ 0 ∧ block.2 = blockId := by
  rw [gpu_spec_blocks made] at member
  obtain ⟨group, isGroup, inGroup⟩ := List.mem_flatMap.mp member
  obtain ⟨block, isBlock, rfl⟩ := List.mem_map.mp inGroup
  obtain ⟨inChunks, live⟩ := List.mem_filter.mp isBlock
  obtain ⟨chunk, accepted, inChunk⟩ := List.mem_flatMap.mp inChunks
  exact ⟨group, (List.mem_filter.mp isGroup).1, chunk, accepted, block, inChunk,
    by simpa using live, rfl⟩

theorem no_tail_jobs {begun : OffloadingConnectorScheduler M} {tails : StoreBuild M}
    (noTails : output.partialTailOffloads = OrderedMap.empty)
    (tailed : buildPartialTailStoreJobs ⟨begun, 0, OrderedMap.empty⟩ output = .ok tails) :
    tails.storeJobs = OrderedMap.empty := by
  unfold buildPartialTailStoreJobs at tailed
  rw [noTails] at tailed
  split at tailed
  · cases tailed
    rfl
  · cases tailed
    rfl

/-- A job reads a block whose every recorded place is stale. -/
theorem reads_given {connectorMeta : OffloadingConnectorMetadata}
    {after updated : OffloadingConnectorScheduler M} {jobId : JobId} {transfer : TransferJob}
    {later : RequestOffloadState} {blockId : Nat}
    (built : buildConnectorMeta watch.run.scheduler output = .ok (connectorMeta, after))
    (noTails : output.partialTailOffloads = OrderedMap.empty)
    (found : connectorMeta.storeJobs.get? jobId = some transfer)
    (updates : updateReqStates watch.run.scheduler output = .ok updated)
    (foundLater : updated.reqStatus.get? transfer.reqId = some later)
    (member : blockId ∈ transfer.gpuSpec.blockIds)
    (stale : ∀ group ∈ updated.config.kvGroupConfigs,
      ∀ index < (later.groupStates group.groupIdx).blockIds.length,
        (later.groupStates group.groupIdx).blockIds[index]? = some blockId →
          next.stale transfer.reqId group.groupIdx index = true) :
    ReadsGiven watch next output := by
  obtain ⟨same, begun, tails, _, sameUpdates, began, tailed, made, _, _, _⟩ :=
    build_stores_made built
  cases updates.symm.trans sameUpdates
  rcases made.made jobId transfer found with tail | ⟨offering, prepared, emitted, store⟩
  · rw [no_tail_jobs noTails tailed] at tail
    cases tail
  · have spec : offering.storeSpec prepared.keysToStore = .ok transfer.gpuSpec := by
      obtain ⟨_, _, _, _, _, isNext⟩ := emitted
      exact isNext.gpuSpec
    obtain ⟨group, isGroup, chunk, accepted, block, inChunk, live, rfl⟩ :=
      source_block_of_spec spec member
    have recorded := chunk_block_recorded inChunk live
    obtain ⟨status, foundStatus, _, sameBlocks⟩ := store.recorded
    cases foundLater.symm.trans foundStatus
    rw [Offering.state, sameBlocks] at recorded
    exact ⟨begun, tails, jobId, transfer, offering, prepared, began, tailed, emitted, group,
      isGroup, chunk, accepted, block, inChunk, live, stale group (store.config ▸ isGroup) _
        (List.getElem?_eq_some_iff.mp recorded).1 recorded⟩

end Stores

section Sample

open KvOffload.CpuManager KvOffload.LruPolicy

def pairGroups : List OffloadingGroupConfig := [⟨2, 0⟩, ⟨2, 1⟩]

/-- A full-attention group and a group with a window of one token; a chunk is two blocks. -/
def pairSpec : OffloadingSpec where
  groups := pairGroups
  kvCacheGroups := [⟨.fullAttention, false⟩, ⟨.slidingWindow 1 Nat.one_pos, false⟩]
  blocksPerChunk := 2
  tokensPerHash := 2
  worldSize := 1
  decodeContextParallelSize := 1
  offloadPromptOnly := false
  useEagle := false
  ordered := by decide
  bounded := by decide
  blocks_pos := Nat.two_pos
  hash_pos := Nat.two_pos
  hash_fits := by decide

abbrev PairWatch := Watch (CPUOffloadingManager LRUCachePolicy)

def pairStart : PairWatch :=
  Watch.start (.fromSpec pairSpec) {} none (.new { numBlocks := 4 } (.new 4)) ⟨fun _ => 0, 0⟩

def pairRequest (reqId : ReqId) (numTokens numComputedTokens : Nat) (hashes : List BlockHash) :
    Request :=
  ⟨reqId, numTokens, numTokens, numComputedTokens, hashes, .unfinished, false, .all, none⟩

def longRequest (numComputedTokens : Nat) : Request :=
  pairRequest 0 9 numComputedTokens [[0], [1], [2], [3]]

/-- The first block of the window of request 0 goes to request 1 before its chunk is stored. -/
def slideEvents : List WatchEvent :=
  [.connector (.newRequest (longRequest 0)),
    .step
      { reqData := [⟨0, [[5, 7], [6, 8]], false⟩]
        numScheduledTokens := OrderedMap.empty.set 0 3 } {5, 6, 7, 8},
    .connector (.requestChanged (longRequest 3)),
    .connector (.newRequest (pairRequest 1 2 0 [[7]]))]

def slideOutput : SchedulerOutput where
  reqData := [⟨0, [[9], [10]], false⟩, ⟨1, [[11], [6]], false⟩]
  numScheduledTokens := (OrderedMap.empty.set 0 2).set 1 2

/-- The blocks that the first job of a step reads, and whether the first window block of request 0
was given away. -/
def seenStep (output : SchedulerOutput) (given : Finset Nat) (watch : PairWatch) :
    Except PyError (Option (List Nat) × Bool × Bool) := do
  let next ← watch.apply (.step output given)
  let (connectorMeta, _) ← buildConnectorMeta watch.run.scheduler output
  .ok ((connectorMeta.storeJobs.get? 0).map fun transfer => transfer.gpuSpec.blockIds,
    next.stale 0 1 0, decide (watch.Permitted (.step output given)))

/-- The block that slid out is not read. -/
theorem slid_store_reads : ∃ (watch next : PairWatch)
    (connectorMeta : OffloadingConnectorMetadata) (transfer : TransferJob),
    EventRuns.Reaches Watch.apply Watch.Permitted pairStart watch ∧
    watch.apply (.step slideOutput {6, 9, 10, 11}) = .ok next ∧
    next.stale 0 1 0 = true ∧ connectorMeta.storeJobs.get? 0 = some transfer ∧
    transfer.gpuSpec.blockIds = [5, 7, 8] ∧ StoresRead watch next slideOutput connectorMeta := by
  have ran : (EventRuns.replay Watch.apply Watch.Permitted pairStart slideEvents).map
      (seenStep slideOutput {6, 9, 10, 11}) = some (.ok (some [5, 7, 8], true, true)) := by
    decide +kernel
  obtain ⟨watch, reaches, seen⟩ := EventRuns.exists_of_replay ran
  obtain ⟨next, applied, seen⟩ := bind_eq_ok.mp seen
  obtain ⟨⟨connectorMeta, after⟩, built, seen⟩ := bind_eq_ok.mp seen
  simp only [Except.ok.injEq, Prod.mk.injEq, decide_eq_true_eq] at seen
  obtain ⟨blocks, stale, permitted⟩ := seen
  obtain ⟨transfer, found, blocks⟩ := Option.map_eq_some_iff.mp blocks
  exact ⟨watch, next, connectorMeta, transfer, reaches, applied, stale, found, blocks,
    stores_read_their_chunks reaches permitted applied built⟩

/-- The second step hands the blocks of a window out again once their chunk is stored, and their
chunk is evicted. -/
def mirrorEvents : List WatchEvent :=
  [.connector (.newRequest (longRequest 0)),
    .step
      { reqData := [⟨0, [[5, 7], [6, 8]], false⟩]
        numScheduledTokens := OrderedMap.empty.set 0 4 } {5, 6, 7, 8},
    .connector (.updateConnectorOutput [(0, 1)]),
    .connector (.requestChanged (longRequest 4)),
    .connector (.newRequest (pairRequest 1 4 0 [[7], [8]])),
    .step
      { reqData := [⟨0, [[9, 11], [10, 12]], false⟩, ⟨1, [[13, 14], [6, 8]], false⟩]
        numScheduledTokens := (OrderedMap.empty.set 0 4).set 1 4 }
      {6, 8, 9, 10, 11, 12, 13, 14},
    .connector (.updateConnectorOutput [(1, 1), (2, 1)]),
    .connector (.requestChanged (longRequest 8))]

def mirrorOutput : SchedulerOutput where
  reqData := [⟨0, [[15], [16]], false⟩]
  numScheduledTokens := OrderedMap.empty.set 0 1

/-- The last token of request 0 fills a chunk. -/
def endedRequest (numComputedTokens : Nat) : Request :=
  { pairRequest 0 3 numComputedTokens [[0], [1]] with numTokens := 4, status := .finished }

/-- A request ends, and its blocks go to the next one before its last chunk is stored. -/
def endEvents : List WatchEvent :=
  [.connector (.newRequest (pairRequest 0 3 0 [[0]])),
    .step
      { reqData := [⟨0, [[5, 7], [6, 8]], false⟩]
        numScheduledTokens := OrderedMap.empty.set 0 3 } {5, 6, 7, 8},
    .connector (.requestFinished (endedRequest 3)),
    .connector (.newRequest (pairRequest 1 3 0 [[7]]))]

def endOutput : SchedulerOutput where
  reqData := [⟨1, [[5, 7], [9, 10]], false⟩]
  numScheduledTokens := OrderedMap.empty.set 1 3
  finishedReqIds := [0]

/-- A request is preempted before its last token comes, and its blocks go to the next one. -/
def preemptEvents : List WatchEvent :=
  [.connector (.newRequest (pairRequest 0 3 0 [[0]])),
    .step
      { reqData := [⟨0, [[5, 7], [6, 8]], false⟩]
        numScheduledTokens := OrderedMap.empty.set 0 3 } {5, 6, 7, 8},
    .connector (.newRequest (pairRequest 1 3 0 [[7]])),
    .step
      { reqData := [⟨1, [[5, 7], [9, 10]], false⟩]
        numScheduledTokens := OrderedMap.empty.set 1 3
        preemptedReqIds := [0] } {5, 7, 9, 10},
    .connector (.requestFinished (endedRequest 0))]

def preemptOutput : SchedulerOutput where
  finishedReqIds := [0]

/-- A run comes to a step whose store reads blocks that were given to other tokens. -/
def StepReadsGiven (output : SchedulerOutput) (given : Finset Nat) : Prop :=
  ∃ watch next : PairWatch, EventRuns.Reaches Watch.apply Watch.Permitted pairStart watch ∧
    watch.Permitted (.step output given) ∧ watch.apply (.step output given) = .ok next ∧
    ReadsGiven watch next output

/-- The job reads the block for request 0, and each place where the block is recorded is stale. -/
def readsStale (output : SchedulerOutput) (given : Finset Nat) (jobId : JobId) (blockId : Nat)
    (watch : PairWatch) : Except PyError Bool := do
  let next ← watch.apply (.step output given)
  let updated ← updateReqStates watch.run.scheduler output
  let later ← updated.statusOf 0
  let (connectorMeta, _) ← buildConnectorMeta watch.run.scheduler output
  .ok (decide (watch.Permitted (.step output given) ∧
    (∃ transfer ∈ connectorMeta.storeJobs.get? jobId,
      transfer.reqId = 0 ∧ blockId ∈ transfer.gpuSpec.blockIds) ∧
    ∀ group ∈ updated.config.kvGroupConfigs,
      ∀ index < (later.groupStates group.groupIdx).blockIds.length,
        (later.groupStates group.groupIdx).blockIds[index]? = some blockId →
          next.stale 0 group.groupIdx index = true))

theorem step_reads_given {events : List WatchEvent} {output : SchedulerOutput}
    {given : Finset Nat} {jobId : JobId} {blockId : Nat}
    (noTails : output.partialTailOffloads = OrderedMap.empty)
    (ran : (EventRuns.replay Watch.apply Watch.Permitted pairStart events).map
      (readsStale output given jobId blockId) = some (.ok true)) : StepReadsGiven output given := by
  obtain ⟨watch, reaches, seen⟩ := EventRuns.exists_of_replay ran
  obtain ⟨next, applied, seen⟩ := bind_eq_ok.mp seen
  obtain ⟨updated, updates, seen⟩ := bind_eq_ok.mp seen
  obtain ⟨later, found, seen⟩ := bind_eq_ok.mp seen
  obtain ⟨⟨connectorMeta, after⟩, built, seen⟩ := bind_eq_ok.mp seen
  obtain ⟨permitted, ⟨transfer, sent, own, member⟩, stale⟩ := of_decide_eq_true (Except.ok.inj seen)
  have found := status_of_ok found
  rw [← own] at found stale
  exact ⟨watch, next, reaches, permitted, applied,
    reads_given built noTails sent updates found member stale⟩

/-- A store reads blocks that other tokens were given: of a chunk that the mirror stores again, of
a request that ends with this step, and of one that was preempted before it ended. -/
theorem stores_read_given : StepReadsGiven mirrorOutput {15, 16} ∧
    StepReadsGiven endOutput {5, 7, 9, 10} ∧ StepReadsGiven preemptOutput ∅ := by
  have mirrored : (EventRuns.replay Watch.apply Watch.Permitted pairStart mirrorEvents).map
      (readsStale mirrorOutput {15, 16} 3 6) = some (.ok true) := by
    decide +kernel
  have ended : (EventRuns.replay Watch.apply Watch.Permitted pairStart endEvents).map
      (readsStale endOutput {5, 7, 9, 10} 0 5) = some (.ok true) := by
    decide +kernel
  have preempted : (EventRuns.replay Watch.apply Watch.Permitted pairStart preemptEvents).map
      (readsStale preemptOutput ∅ 0 5) = some (.ok true) := by
    decide +kernel
  exact ⟨step_reads_given rfl mirrored, step_reads_given rfl ended, step_reads_given rfl preempted⟩

end Sample

end KvOffload.FreshSources
