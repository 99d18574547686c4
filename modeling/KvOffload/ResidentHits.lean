import KvOffload.ArcRepresentation
import KvOffload.BatchEviction
import KvOffload.DutifulManagers
import KvOffload.MirrorLookups
import KvOffload.PrimaryCalls
import KvOffload.StoreOfferRuns

/-!
# Hits that stay resident

A lookup of the tiering manager may start a promotion, and a promotion may evict a block
of the primary tier. The scan of complete chunks never returns a boundary after one. The
scan of the partial tail runs later and goes on after a pending boundary, so a promotion of
its own may take a block that the scan before it has counted. All counted keys are still
resident when the call returns exactly if no block that is next to be evicted, when the
tail comes to a key that it has to promote, is such a chunk.
-/

namespace KvOffload.ResidentHits

open KvOffload KvOffload.Base KvOffload.PolicyInterface KvOffload.CpuManager
open KvOffload.CpuManagerSpec KvOffload.PolicyMoves KvOffload.CpuManagerMoves
open KvOffload.CpuHistories KvOffload.Tiering KvOffload.PrimaryCalls
open KvOffload.ConnectorConfig KvOffload.ConnectorRequests KvOffload.ManagerInterface
open KvOffload.ConnectorLookup KvOffload.ConnectorScheduler KvOffload.LookupCoverage
open KvOffload.ConnectorRuns KvOffload.ManagerRuns

set_option autoImplicit false

section Tail

variable {M : Type} [OffloadingLookup M] (config : SchedulerOffloadConfig)
  (status : RequestOffloadState)

/-- The lookups at one boundary of the tail, each with the manager that it finds. -/
def boundaryLookups (boundary : Nat) : M → List GroupOffloadConfig → List (M × OffloadKey)
  | _, [] => []
  | manager, group :: rest =>
      match makeBoundaryKey config status.req group.groupIdx boundary with
      | .error _ => []
      | .ok key => (manager, key) ::
          match OffloadingLookup.lookup manager key status.reqContext with
          | .error _ => []
          | .ok (result, manager) =>
              if result = .miss then [] else boundaryLookups boundary manager rest

def scanLookups : M → List Nat → List (M × OffloadKey)
  | _, [] => []
  | manager, boundary :: rest =>
      boundaryLookups config status boundary manager config.kvGroupConfigs ++
        match lookupBoundary config status boundary manager false config.kvGroupConfigs with
        | .error _ => []
        | .ok ((missed, boundaryPending), manager) =>
            if missed = false ∧ boundaryPending = false then [] else scanLookups manager rest

/-- All lookups that the partial tail of a call makes. -/
def tailLookups (mirrorLocal : Bool) (mambaAlignSize : Option Nat)
    (chunksBeingLoaded : Option (Finset OffloadKey)) (manager : M) : List (M × OffloadKey) :=
  match config.supportsPartialTail,
      lookupCompleteChunks config mirrorLocal status mambaAlignSize chunksBeingLoaded manager with
  | true, .ok (some completeHit, manager) =>
      scanLookups config status manager
        (tailBoundaries config status (status.numLocallyComputedTokens + completeHit))
  | _, _ => []

/-- The chunks of the complete hit. -/
def CountsChunk (mirrorLocal : Bool) (mambaAlignSize : Option Nat)
    (chunksBeingLoaded : Option (Finset OffloadKey)) (manager : M) (key : OffloadKey) : Prop :=
  ∃ completeHit last, lookupCompleteChunks config mirrorLocal status mambaAlignSize
      chunksBeingLoaded manager = .ok (some completeHit, last) ∧ 0 < completeHit ∧
    ∃ group ∈ config.kvGroupConfigs, ∃ chunkIdx,
      Counted group status.numLocallyComputedTokens
        (status.numLocallyComputedTokens + completeHit) chunkIdx ∧
      (status.groupStates group.groupIdx).offloadKeys[chunkIdx]? = some key

/-- The keys that a lookup counts as hits for the boundary it returns: the chunks of the
complete hit, and the keys of a hit in the tail. -/
def Counts (mirrorLocal : Bool) (mambaAlignSize : Option Nat)
    (chunksBeingLoaded : Option (Finset OffloadKey)) (manager : M) (key : OffloadKey) : Prop :=
  CountsChunk config status mirrorLocal mambaAlignSize chunksBeingLoaded manager key ∨
  (∃ hit boundary last, lookup config mirrorLocal status mambaAlignSize chunksBeingLoaded
      manager = .ok ((hit, some boundary), last) ∧
    ∃ group ∈ config.kvGroupConfigs,
      makeBoundaryKey config status.req group.groupIdx boundary = .ok key)

variable {config status}

section Kept

variable {Valid Kept : M → Prop} {Lost : M → OffloadKey → Prop}

/-- A boundary keeps what each of its lookups keeps. -/
theorem boundary_keeps
    (step : ∀ manager key answer after, Valid manager →
      OffloadingLookup.lookup manager key status.reqContext = .ok (answer, after) →
        Valid after ∧ (Kept after ↔ Kept manager ∧ ¬Lost manager key))
    (boundary : Nat) (groups : List GroupOffloadConfig) {manager last : M}
    {boundaryPending : Bool} {result : Bool × Bool} (valid : Valid manager)
    (scanned : lookupBoundary config status boundary manager boundaryPending groups =
      .ok (result, last)) :
    Valid last ∧ (Kept last ↔ Kept manager ∧
      ∀ look ∈ boundaryLookups config status boundary manager groups, ¬Lost look.1 look.2) := by
  induction groups generalizing manager boundaryPending with
  | nil =>
      cases scanned
      simpa [boundaryLookups] using valid
  | cons group rest ih =>
      obtain ⟨key, made, scanned⟩ := bind_eq_ok.mp scanned
      obtain ⟨⟨answer, after⟩, call, scanned⟩ := bind_eq_ok.mp scanned
      have listed : boundaryLookups config status boundary manager (group :: rest) =
          (manager, key) :: if answer = .miss then []
            else boundaryLookups config status boundary after rest := by
        simp only [boundaryLookups, made, call]
      obtain ⟨afterValid, first⟩ := step manager key answer after valid call
      rw [listed]
      have goesOn : answer ≠ .miss →
          (∃ pending, lookupBoundary config status boundary after pending rest =
            .ok (result, last)) → Valid last ∧ (Kept last ↔ Kept manager ∧
              ∀ look ∈ (manager, key) :: if answer = .miss then []
                else boundaryLookups config status boundary after rest, ¬Lost look.1 look.2) := by
        rintro found ⟨pending, later⟩
        obtain ⟨lastValid, kept⟩ := ih afterValid later
        rw [if_neg found, List.forall_mem_cons]
        exact ⟨lastValid, by rw [kept, first, and_assoc]⟩
      cases answer with
      | miss =>
          cases scanned
          exact ⟨afterValid, by simp [first]⟩
      | hit => exact goesOn (by simp) ⟨_, scanned⟩
      | hitPending => exact goesOn (by simp) ⟨_, scanned⟩
      | retry => exact goesOn (by simp) ⟨_, scanned⟩

theorem scan_keeps
    (step : ∀ manager key answer after, Valid manager →
      OffloadingLookup.lookup manager key status.reqContext = .ok (answer, after) →
        Valid after ∧ (Kept after ↔ Kept manager ∧ ¬Lost manager key))
    (boundaries : List Nat) {manager last : M} {pending : Bool} {result : Option Nat × Bool}
    (valid : Valid manager)
    (scanned : scanTail config status manager pending boundaries = .ok (result, last)) :
    Valid last ∧ (Kept last ↔ Kept manager ∧
      ∀ look ∈ scanLookups config status manager boundaries, ¬Lost look.1 look.2) := by
  induction boundaries generalizing manager pending with
  | nil =>
      cases scanned
      simpa [scanLookups] using valid
  | cons boundary rest ih =>
      obtain ⟨⟨⟨missed, boundaryPending⟩, after⟩, first, scanned⟩ := bind_eq_ok.mp scanned
      obtain ⟨afterValid, kept⟩ := boundary_keeps step boundary _ valid first
      rw [scanLookups, first, List.forall_mem_append]
      dsimp only at scanned ⊢
      split at scanned
      · rename_i hit
        cases scanned
        rw [if_pos hit]
        exact ⟨afterValid, by simp [kept]⟩
      · rename_i goesOn
        obtain ⟨lastValid, later⟩ := ih afterValid scanned
        rw [if_neg goesOn]
        exact ⟨lastValid, by rw [later, kept, and_assoc]⟩

end Kept

section Boundary

variable {Valid : M → Prop} {Known : M → OffloadKey → Prop}

/-- A boundary without a miss and without a pending answer has all its keys known. -/
theorem boundary_known (facts : LookupFacts Valid Known) (boundary : Nat)
    (groups : List GroupOffloadConfig) {manager last : M} {boundaryPending : Bool}
    (valid : Valid manager)
    (scanned : lookupBoundary config status boundary manager boundaryPending groups =
      .ok ((false, false), last)) :
    boundaryPending = false ∧ Retains Known manager last ∧ ∀ group ∈ groups, ∀ key,
      makeBoundaryKey config status.req group.groupIdx boundary = .ok key → Known last key := by
  induction groups generalizing manager boundaryPending with
  | nil =>
      cases scanned
      exact ⟨rfl, fun _ => id, by simp⟩
  | cons group rest ih =>
      obtain ⟨key, made, scanned⟩ := bind_eq_ok.mp scanned
      obtain ⟨⟨answer, after⟩, call, scanned⟩ := bind_eq_ok.mp scanned
      have afterValid := facts.valid valid call
      cases answer with
      | miss => cases scanned
      | hit =>
          obtain ⟨notPending, retains, known⟩ := ih afterValid scanned
          refine ⟨notPending, fun other before =>
            retains other (facts.kept valid call (by simp) before), ?_⟩
          intro other member otherKey otherMade
          rcases List.mem_cons.mp member with rfl | member
          · cases made.symm.trans otherMade
            exact retains _ (facts.hit valid call)
          · exact known other member otherKey otherMade
      | hitPending => exact absurd (ih afterValid scanned).1 (by simp)
      | retry => exact absurd (ih afterValid scanned).1 (by simp)

theorem scan_known (facts : LookupFacts Valid Known) (boundaries : List Nat)
    {manager last : M} {pending : Bool} {found : Nat} {wasPending : Bool}
    (valid : Valid manager)
    (scanned : scanTail config status manager pending boundaries =
      .ok ((some found, wasPending), last)) :
    ∀ group ∈ config.kvGroupConfigs, ∀ key,
      makeBoundaryKey config status.req group.groupIdx found = .ok key → Known last key := by
  induction boundaries generalizing manager pending with
  | nil => cases scanned
  | cons boundary rest ih =>
      obtain ⟨⟨⟨missed, boundaryPending⟩, after⟩, first, scanned⟩ := bind_eq_ok.mp scanned
      have afterValid : Valid after := (@boundary_keeps M _ config status Valid (fun _ => True)
        (fun _ _ => False) (fun _ _ _ _ valid call => ⟨facts.valid valid call, by simp⟩)
        boundary _ _ _ _ _ valid first).1
      dsimp only at scanned
      split at scanned
      · rename_i hit
        obtain ⟨rfl, rfl⟩ := hit
        cases scanned
        exact (boundary_known facts found _ valid first).2.2
      · exact ih afterValid scanned

end Boundary

end Tail

section Promotions

variable {P : Type} [CachePolicy P] {manager after : TieringOffloadingManager P}
  {key : OffloadKey} {reqContext : ReqContext} {result : LookupResult}

/-- The blocks that the lookup of a key is about to evict from the primary tier. -/
def lookupVictims (manager : TieringOffloadingManager P) (key : OffloadKey)
    (reqContext : ReqContext) : List OffloadKey :=
  (promotionStore manager key reqContext).elim [] PrepareStoreOutput.evictedKeys

/-- Stored in the primary tier and filled. -/
def Resident (manager : TieringOffloadingManager P) (key : OffloadKey) : Prop :=
  manager.primaryTier.lookupResult key = .hit

instance (manager : TieringOffloadingManager P) (key : OffloadKey) :
    Decidable (Resident manager key) := inferInstanceAs (Decidable (_ = _))

theorem resident_iff : Resident manager key ↔ Ready manager.primaryTier.policy key :=
  lookup_result_hit_iff manager.primaryTier key

variable [LawfulCachePolicy P] [TrackedPolicy P]

open TrackedPolicy

/-- A store takes from the ready keys those that it evicts. -/
theorem stored_ready {before next : CPUOffloadingManager P} {keys : List OffloadKey}
    {output : Option PrepareStoreOutput} (tracked : Tracked before.policy)
    (prepared : before.prepareStore keys false = .ok (output, next)) (other : OffloadKey) :
    Ready next.policy other ↔
      Ready before.policy other ∧ other ∉ output.elim [] PrepareStoreOutput.evictedKeys := by
  cases prepare_store_performed tracked prepared with
  | refused performed =>
      have same : next.policy = before.policy := performed.policy
      simp [same]
  | roomy _ evicts _ performed =>
      rw [reserve_moves_ready tracked performed.policy]
      simp [evicts]
  | evicting _ evicts _ performed =>
      obtain ⟨middle, evicted, reserved⟩ := performed.policy
      rw [reserve_moves_ready (tracked_moved tracked evicted) reserved,
        ready_moved tracked evicted]
      simp [Move.readyAfter, evicts]

theorem polled_ready {polled : TieringOffloadingManager P} {primary : CPUOffloadingManager P}
    {stored : Option PrepareStoreOutput} (tracked : Tracked manager.primaryTier.policy)
    (looked : Looked manager key result after polled primary stored) :
    Tracked primary.policy ∧ ∀ other, Ready manager.primaryTier.policy other →
      Ready primary.policy other := by
  obtain ⟨answer, primaryOk, _⟩ := looked.looks
  have polledTracked := calls_tracked tracked (maybe_process_reaches looked.polls)
  refine ⟨call_tracked polledTracked (.looked primaryOk), fun other ready => ?_⟩
  apply call_ready polledTracked (.looked primaryOk) id
  exact calls_ready settling_spares tracked (maybe_process_reaches looked.polls) ready

/-- A lookup takes a ready key away only by a promotion. -/
theorem lookup_spares (tracked : Tracked manager.primaryTier.policy)
    (called : manager.lookup key reqContext = .ok (result, after))
    (settled : result ≠ .hitPending) {other : OffloadKey}
    (ready : Ready manager.primaryTier.policy other) : Ready after.primaryTier.policy other := by
  obtain ⟨polled, primary, looked⟩ := lookup_looked called
  obtain ⟨primaryTracked, kept⟩ := polled_ready tracked looked
  rcases looked.stores with ⟨same, _⟩ | ⟨prepared, accepted, _⟩
  · rw [same]
    exact kept other ready
  · have refused : promotionStore manager key reqContext = none :=
      Option.not_isSome_iff_eq_none.mp (settled ∘ accepted.mp)
    rw [stored_ready primaryTracked prepared, refused]
    exact ⟨kept other ready, List.not_mem_nil⟩

theorem lookup_gated (called : manager.lookup key reqContext = .ok (result, after)) :
    after.processedJobsThisStep = true := by
  obtain ⟨polled, processed, quiet⟩ := TransferBooks.lookup_quiet called
  unfold TieringOffloadingManager.maybeProcessFinishedJobs at processed
  split at processed
  · rename_i closed
    cases processed
    exact quiet.gate.trans closed
  · exact quiet.gate.trans (DutifulManagers.process_step processed).gate

/-- Once the step has polled, a lookup takes from the ready keys those that it is about to
evict, and fills none. -/
theorem gated_lookup_ready (tracked : Tracked manager.primaryTier.policy)
    (gated : manager.processedJobsThisStep = true)
    (called : manager.lookup key reqContext = .ok (result, after)) (other : OffloadKey) :
    Ready after.primaryTier.policy other ↔ Ready manager.primaryTier.policy other ∧
      ¬other ∈ lookupVictims manager key reqContext := by
  obtain ⟨polled, primary, looked⟩ := lookup_looked called
  have polls := looked.polls
  rw [TieringOffloadingManager.maybeProcessFinishedJobs, if_pos gated] at polls
  cases polls
  obtain ⟨answer, primaryOk, _⟩ := looked.looks
  have same := (lookup_spec primaryOk).1.policy
  unfold lookupVictims
  rcases looked.stores with ⟨kept, nothing, _⟩ | ⟨prepared, _⟩
  · rw [kept, same, nothing]
    simp
  · rw [stored_ready (same ▸ tracked) prepared, same]

theorem hit_ready (tracked : Tracked manager.primaryTier.policy)
    (called : manager.lookup key reqContext = .ok (.hit, after)) :
    Ready after.primaryTier.policy key := by
  obtain ⟨polled, primary, looked⟩ := lookup_looked called
  obtain ⟨answer, primaryOk, isHit⟩ := looked.looks
  obtain ⟨same, answered⟩ := lookup_spec primaryOk
  have hit : polled.primaryTier.lookupResult key = .hit := answered.symm.trans (isHit.mp rfl)
  have polledTracked := calls_tracked tracked (maybe_process_reaches looked.polls)
  have ready : Ready primary.policy key :=
    call_ready polledTracked (.looked primaryOk) id ((lookup_result_hit_iff _ _).mp hit)
  rcases looked.stores with ⟨kept, _⟩ | ⟨_, _, missed⟩
  · rw [kept]
    exact ready
  · cases hit.symm.trans missed

theorem touch_ready (tracked : Tracked manager.primaryTier.policy) (keys : List OffloadKey)
    (other : OffloadKey) :
    Ready (manager.touch keys).primaryTier.policy other ↔
      Ready manager.primaryTier.policy other := by
  rw [TieringOffloadingManager.touch, call_all_primary]
  obtain ⟨after, moved, same⟩ := (@touch_performed P _ manager.primaryTier keys).policy
  show Ready (manager.primaryTier.touch keys).policy other ↔ _
  rw [same]
  exact ready_moved tracked moved other

theorem tiering_lookup_facts :
    LookupFacts (fun manager : TieringOffloadingManager P => Tracked manager.primaryTier.policy)
      fun manager key => Ready manager.primaryTier.policy key where
  hit tracked called := hit_ready tracked called
  kept tracked called settled ready := lookup_spares tracked called settled ready
  valid tracked called := tracked_keeps.lookup tracked called
  touch_kept {_ keys other} tracked ready := (touch_ready tracked keys other).mpr ready
  touch_valid tracked := tracked_keeps.touch _ tracked

/-- A key that was answered was looked up in a step that has polled. -/
theorem gated_lookup_facts :
    LookupFacts (fun _ : TieringOffloadingManager P => True)
      fun manager _ => manager.processedJobsThisStep = true where
  hit _ called := lookup_gated called
  kept _ called _ _ := lookup_gated called
  valid _ _ := trivial
  touch_kept _ gated := (TransferBooks.touch_quiet _ _).gate.trans gated
  touch_valid _ := trivial

end Promotions

section Calls

variable {P : Type} [CachePolicy P] [LawfulCachePolicy P] [TrackedPolicy P]

open TrackedPolicy

theorem asked_tracked {reqContext : ReqContext} {manager last : TieringOffloadingManager P}
    (tracked : Tracked manager.primaryTier.policy)
    (asked : LookupCalls.Asked reqContext manager last) : Tracked last.primaryTier.policy := by
  induction asked with
  | refl => exact tracked
  | tail _ step ih =>
      cases step with
      | looked call => exact tracked_keeps.lookup ih call
      | touched keys => exact tracked_keeps.touch keys ih

section Lookup

/-- The blocks that are about to be evicted when the partial tail comes to a key that it has
to promote. -/
def tailVictims (config : SchedulerOffloadConfig) (status : RequestOffloadState)
    (mirrorLocal : Bool) (mambaAlignSize : Option Nat)
    (chunksBeingLoaded : Option (Finset OffloadKey)) (manager : TieringOffloadingManager P) :
    List OffloadKey :=
  (tailLookups config status mirrorLocal mambaAlignSize chunksBeingLoaded manager).flatMap
    fun look => lookupVictims look.1 look.2 status.reqContext

variable {config : SchedulerOffloadConfig} {status : RequestOffloadState} {mirrorLocal : Bool}
  {mambaAlignSize : Option Nat} {chunksBeingLoaded : Option (Finset OffloadKey)}
  {manager middle last : TieringOffloadingManager P} {hit completeHit : Nat} {tail : Option Nat}

/-- The chunks of the complete hit are ready before the tail is scanned, in a step that has
polled. -/
theorem counted_chunk_ready (tracked : Tracked manager.primaryTier.policy)
    (complete : lookupCompleteChunks config mirrorLocal status mambaAlignSize chunksBeingLoaded
      manager = .ok (some completeHit, middle)) {key : OffloadKey}
    (counted : CountsChunk config status mirrorLocal mambaAlignSize chunksBeingLoaded manager
      key) :
    Ready middle.primaryTier.policy key ∧ middle.processedJobsThisStep = true := by
  obtain ⟨otherHit, otherLast, otherComplete, positive, group, member, chunkIdx, chunk, found⟩ :=
    counted
  cases complete.symm.trans otherComplete
  have covered := (lookup_complete_chunks_covers tiering_lookup_facts tracked positive complete).2
  have gated := (lookup_complete_chunks_covers (@gated_lookup_facts P _ _ _) trivial positive
    complete).2
  exact ⟨(covered group member).known chunkIdx chunk key found,
    (gated group member).known chunkIdx chunk key found⟩

/-- The tail takes from the ready keys those that its lookups are about to evict. -/
theorem tail_keeps (tracked : Tracked middle.primaryTier.policy)
    (gated : middle.processedJobsThisStep = true) {boundaries : List Nat} {pending : Bool}
    {result : Option Nat × Bool} {scanned : TieringOffloadingManager P}
    (scan : scanTail config status middle pending boundaries = .ok (result, scanned))
    (key : OffloadKey) :
    Ready scanned.primaryTier.policy key ↔ Ready middle.primaryTier.policy key ∧
      ∀ look ∈ scanLookups config status middle boundaries,
        key ∉ lookupVictims look.1 look.2 status.reqContext := by
  apply (@scan_keeps (TieringOffloadingManager P) _ config status
    (fun manager => Tracked manager.primaryTier.policy ∧ manager.processedJobsThisStep = true)
    (fun manager => Ready manager.primaryTier.policy key)
    (fun manager asked => key ∈ lookupVictims manager asked status.reqContext) _ boundaries middle
    scanned pending result ⟨tracked, gated⟩ scan).2
  rintro manager asked answer after ⟨managerTracked, managerGated⟩ call
  exact ⟨⟨tracked_keeps.lookup managerTracked call, lookup_gated call⟩,
    gated_lookup_ready managerTracked managerGated call key⟩

/-- A chunk of the complete hit is ready after the lookup exactly if the tail is not about
to evict it. -/
theorem counted_chunk_kept (tracked : Tracked manager.primaryTier.policy)
    (looked : lookup config mirrorLocal status mambaAlignSize chunksBeingLoaded manager =
      .ok ((some hit, tail), last)) {key : OffloadKey}
    (counted : CountsChunk config status mirrorLocal mambaAlignSize chunksBeingLoaded manager
      key) :
    Ready last.primaryTier.policy key ↔
      key ∉ tailVictims config status mirrorLocal mambaAlignSize chunksBeingLoaded manager := by
  unfold tailVictims
  obtain ⟨⟨completeHit, middle⟩, complete, looked⟩ := bind_eq_ok.mp looked
  have middleTracked := asked_tracked tracked (LookupCalls.lookup_complete_chunks_asked complete)
  cases completeHit with
  | none => cases looked
  | some completeHit =>
      obtain ⟨ready, gated⟩ := counted_chunk_ready tracked complete counted
      dsimp only at looked
      split at looked
      · rename_i noTail
        cases looked
        simp [tailLookups, noTail, ready]
      · rename_i partialTail
        rw [Bool.not_eq_false] at partialTail
        obtain ⟨⟨⟨boundary, pending⟩, scanned⟩, scan, looked⟩ := bind_eq_ok.mp looked
        have listed : tailLookups config status mirrorLocal mambaAlignSize chunksBeingLoaded
            manager = scanLookups config status middle
              (tailBoundaries config status (status.numLocallyComputedTokens + completeHit)) := by
          simp only [tailLookups, partialTail, complete]
        have same : scanned = last := by
          cases boundary with
          | some boundary =>
              cases looked
              rfl
          | none =>
              dsimp only at looked
              split at looked
              · cases looked
              · cases looked
                rfl
        rw [listed, ← same, tail_keeps middleTracked gated scan key, and_iff_right ready]
        simp only [List.mem_flatMap, not_exists, not_and]

/-- The keys of a hit in the tail are ready after the lookup. -/
theorem tail_hit_ready (tracked : Tracked manager.primaryTier.policy) {boundary : Nat}
    (looked : lookup config mirrorLocal status mambaAlignSize chunksBeingLoaded manager =
      .ok ((some hit, some boundary), last))
    {group : GroupOffloadConfig} (member : group ∈ config.kvGroupConfigs) {key : OffloadKey}
    (made : makeBoundaryKey config status.req group.groupIdx boundary = .ok key) :
    Ready last.primaryTier.policy key := by
  obtain ⟨⟨completeHit, middle⟩, complete, looked⟩ := bind_eq_ok.mp looked
  have middleTracked := asked_tracked tracked (LookupCalls.lookup_complete_chunks_asked complete)
  cases completeHit with
  | none => cases looked
  | some completeHit =>
      dsimp only at looked
      split at looked
      · cases looked
      · obtain ⟨⟨⟨found, pending⟩, scanned⟩, scan, looked⟩ := bind_eq_ok.mp looked
        cases found with
        | some found =>
            cases looked
            exact scan_known tiering_lookup_facts _ middleTracked scan group member key made
        | none =>
            dsimp only at looked
            split at looked
            · cases looked
            · cases looked

end Lookup

variable {M : Type} [OffloadingManager M] {scheduler after : OffloadingConnectorScheduler M}

/-- The status that the lookup of a call reads. -/
def lookedUpStatus (scheduler : OffloadingConnectorScheduler M) (status : RequestOffloadState)
    (numComputedTokens : Nat) : RequestOffloadState :=
  let staleHit := scheduler.settings.staleHit
  let (_, released, clock) :=
    StaleHitLadder.StaleHit.escapeGate staleHit status.staleHit scheduler.clock numComputedTokens
  let (_, unpinned, _) :=
    StaleHitLadder.StaleHit.pinGate staleHit released clock numComputedTokens
  { (status.clearBlockIds.withStaleHit unpinned).updateOffloadKeys scheduler.config with
    numLocallyComputedTokens := numComputedTokens }

/-- What a call with tokens to load leaves of the request that was looked up. -/
structure MatchedStatus (asked : RequestOffloadState) (tail : Option Nat)
    (matched : RequestOffloadState) : Prop where
  req : matched.req = asked.req
  computed : matched.numLocallyComputedTokens = asked.numLocallyComputedTokens
  tail : matched.partialTailBoundary = tail
  keys : ∀ groupIdx, (matched.groupStates groupIdx).offloadKeys =
    (asked.groupStates groupIdx).offloadKeys
  jobs : matched.transferJobs = asked.transferJobs

omit [OffloadingManager M] in
theorem looked_up_computed (status : RequestOffloadState) (numComputedTokens : Nat) :
    (lookedUpStatus scheduler status numComputedTokens).numLocallyComputedTokens =
      numComputedTokens := rfl

theorem hit_chunks_keys (config : SchedulerOffloadConfig) (status : RequestOffloadState)
    (numCachedTokens groupIdx : Nat) :
    ((status.updateNumHitChunks config numCachedTokens).groupStates groupIdx).offloadKeys =
      (status.groupStates groupIdx).offloadKeys := by
  rw [RequestOffloadState.updateNumHitChunks, RequestOffloadState.mapOffloaded,
    RequestOffloadState.map_groups_states]
  split
  · rfl
  · rfl

/-- An answer with tokens to load is the one of the lookup; only touches follow it. -/
theorem answer_hit_matched {reqId : ReqId} {status : RequestOffloadState}
    {numComputedTokens hit : Nat} {numHitTokens : Option Nat}
    (answered : scheduler.answerHit reqId status numComputedTokens numHitTokens =
      .ok ((some hit, true), after)) :
    numHitTokens = some hit ∧ 0 < hit ∧
      (∀ Inv : M → Prop, (∀ manager keys, Inv manager → Inv (OffloadingLookup.touch manager keys)) →
        Inv scheduler.manager → Inv after.manager) ∧
      after.config = scheduler.config ∧ ∃ matched, after.reqStatus.get? reqId = some matched ∧
        MatchedStatus status status.partialTailBoundary matched := by
  unfold OffloadingConnectorScheduler.answerHit at answered
  dsimp only at answered
  split at answered
  · cases answered
  · obtain ⟨manager, touched, answered⟩ := bind_eq_ok.mp answered
    generalize StaleHitLadder.StaleHit.climb _ _ _ _ _ = climb at answered
    obtain ⟨fallsBack, climbed, clock⟩ := climb
    dsimp only at answered
    split at answered
    · cases answered
    · simp only [Except.ok.injEq, Prod.mk.injEq, decide_eq_true_eq] at answered
      obtain ⟨⟨rfl, positive⟩, rfl⟩ := answered
      refine ⟨rfl, positive, fun Inv keeps inv => MirrorLookups.touch_keeps keeps inv touched,
        rfl, _, OrderedMap.get_set_self .., rfl, rfl, rfl, ?_, rfl⟩
      exact hit_chunks_keys scheduler.config status _

/-- An answer with tokens to load comes from a lookup; only touches follow it. -/
theorem matched_looked {reqId : ReqId} {status : RequestOffloadState} {numComputedTokens hit : Nat}
    (tracked : scheduler.reqStatus.get? reqId = some status)
    (called : scheduler.getNumNewMatchedTokens reqId numComputedTokens =
      .ok ((some hit, true), after)) :
    0 < hit ∧ ∃ tail last, lookup scheduler.config scheduler.settings.mirrorLocal
        (lookedUpStatus scheduler status numComputedTokens) scheduler.mambaAlignSize
        scheduler.chunksBeingLoaded scheduler.manager = .ok ((some hit, tail), last) ∧
      (∀ Inv : M → Prop, (∀ manager keys, Inv manager → Inv (OffloadingLookup.touch manager keys)) →
        Inv last → Inv after.manager) ∧
      after.config = scheduler.config ∧ ∃ matched, after.reqStatus.get? reqId = some matched ∧
        MatchedStatus (lookedUpStatus scheduler status numComputedTokens) tail matched := by
  unfold OffloadingConnectorScheduler.getNumNewMatchedTokens
    OffloadingConnectorScheduler.statusOf at called
  rw [tracked, py_item_some, ok_bind] at called
  dsimp only at called
  split at called
  · cases called
  · generalize gate_eq : StaleHitLadder.StaleHit.escapeGate scheduler.settings.staleHit
      status.clearBlockIds.staleHit scheduler.clock numComputedTokens = gate at called
    obtain ⟨held, released, clock⟩ := gate
    cases held with
    | true => cases called
    | false =>
        dsimp only at called
        generalize pin_eq : StaleHitLadder.StaleHit.pinGate scheduler.settings.staleHit
          released clock numComputedTokens = pin at called
        obtain ⟨pinned, unpinned, later⟩ := pin
        cases pinned with
        | true => cases called
        | false =>
            have same : lookedUpStatus scheduler status numComputedTokens =
                { (status.clearBlockIds.withStaleHit unpinned).updateOffloadKeys
                    scheduler.config with numLocallyComputedTokens := numComputedTokens } := by
              have gate : StaleHitLadder.StaleHit.escapeGate scheduler.settings.staleHit
                  status.staleHit scheduler.clock numComputedTokens =
                    (false, released, clock) := gate_eq
              simp only [lookedUpStatus, gate, pin_eq]
            dsimp only at called
            rw [← same] at called
            generalize lookedUpStatus scheduler status numComputedTokens = asked at called ⊢
            obtain ⟨⟨found, _, manager⟩, looked, answered⟩ := bind_eq_ok.mp called
            obtain ⟨rfl, positive, keeps, config, matched, foundAfter, left⟩ :=
              answer_hit_matched answered
            unfold OffloadingConnectorScheduler.freshLookup at looked
            split at looked
            · cases looked
              exact absurd positive (lt_irrefl 0)
            · obtain ⟨⟨⟨found, tail⟩, last⟩, looked, done⟩ := bind_eq_ok.mp looked
              cases done
              exact ⟨positive, tail, manager, looked, keeps, config, matched, foundAfter,
                left.req, left.computed, left.tail, left.keys, left.jobs⟩

/-- A request with tokens to load has no job in flight. -/
theorem matched_idle {reqId : ReqId} {status : RequestOffloadState} {numComputedTokens hit : Nat}
    (tracked : scheduler.reqStatus.get? reqId = some status)
    (called : scheduler.getNumNewMatchedTokens reqId numComputedTokens =
      .ok ((some hit, true), after)) :
    (lookedUpStatus scheduler status numComputedTokens).transferJobs = [] := by
  unfold OffloadingConnectorScheduler.getNumNewMatchedTokens
    OffloadingConnectorScheduler.statusOf at called
  rw [tracked, py_item_some, ok_bind] at called
  dsimp only at called
  split at called
  · cases called
  · rename_i idle
    exact not_ne_iff.mp idle

/-- No block that the partial tail of the call is about to evict is a chunk of the complete
hit. -/
def TailSpares (scheduler : OffloadingConnectorScheduler (TieringOffloadingManager P))
    (status : RequestOffloadState) (numComputedTokens : Nat) : Prop :=
  let asked := lookedUpStatus scheduler status numComputedTokens
  ∀ key ∈ tailVictims scheduler.config asked scheduler.settings.mirrorLocal
    scheduler.mambaAlignSize scheduler.chunksBeingLoaded scheduler.manager,
      ¬CountsChunk scheduler.config asked scheduler.settings.mirrorLocal
        scheduler.mambaAlignSize scheduler.chunksBeingLoaded scheduler.manager key

/-- The call counts the key as a hit for the boundary it returns. -/
def CountedByCall (scheduler : OffloadingConnectorScheduler (TieringOffloadingManager P))
    (status : RequestOffloadState) (numComputedTokens : Nat) (key : OffloadKey) : Prop :=
  Counts scheduler.config (lookedUpStatus scheduler status numComputedTokens)
    scheduler.settings.mirrorLocal scheduler.mambaAlignSize scheduler.chunksBeingLoaded
    scheduler.manager key

theorem call_counts_resident_iff
    {scheduler after : OffloadingConnectorScheduler (TieringOffloadingManager P)}
    (policyTracked : Tracked scheduler.manager.primaryTier.policy) {reqId : ReqId}
    {status : RequestOffloadState} {numComputedTokens hit : Nat}
    (tracked : scheduler.reqStatus.get? reqId = some status)
    (called : scheduler.getNumNewMatchedTokens reqId numComputedTokens =
      .ok ((some hit, true), after)) :
    (∀ key, CountedByCall scheduler status numComputedTokens key → Resident after.manager key) ↔
      TailSpares scheduler status numComputedTokens := by
  obtain ⟨_, tail, last, looked, keeps, _⟩ := matched_looked tracked called
  have lastTracked : Tracked last.primaryTier.policy :=
    asked_tracked policyTracked (LookupCalls.lookup_asked looked)
  have touched : ∀ key, Resident after.manager key ↔ Ready last.primaryTier.policy key := by
    intro key
    have inv := keeps (fun manager => Tracked manager.primaryTier.policy ∧
      (Ready manager.primaryTier.policy key ↔ Ready last.primaryTier.policy key)) ?_
      ⟨lastTracked, Iff.rfl⟩
    · exact resident_iff.trans inv.2
    · rintro manager keys ⟨managerTracked, same⟩
      exact ⟨tracked_keeps.touch keys managerTracked,
        (touch_ready managerTracked keys key).trans same⟩
  constructor
  · intro resident key victim counted
    have ready := (touched key).mp (resident key (.inl counted))
    exact (counted_chunk_kept policyTracked looked counted).mp ready victim
  · intro spares key counts
    rw [touched]
    rcases counts with counted | ⟨otherHit, boundary, otherLast, otherLooked, group, member, made⟩
    · apply (counted_chunk_kept policyTracked looked counted).mpr
      exact fun victim => spares key victim counted
    · cases looked.symm.trans otherLooked
      exact tail_hit_ready policyTracked looked member made

end Calls

section Runs

variable {P : Type} [CachePolicy P]

/-- In every run of the connector over a tiering manager, whatever the tiers answer, a call
leaves all keys that it counted resident exactly if its partial tail is not about to evict
one of them. -/
def HitsResident (policy : P) : Prop :=
  ∀ config settings mambaAlignSize primaryParams params tiers answers clock
    (state : RunState (TieringOffloadingManager P)),
    EventRuns.Reaches RunState.apply RunState.Permitted
      (RunState.start config settings mambaAlignSize
        (.new params (.new primaryParams policy) tiers answers) clock) state →
    ∀ reqId status numComputedTokens hit after,
      state.scheduler.reqStatus.get? reqId = some status →
      state.scheduler.getNumNewMatchedTokens reqId numComputedTokens =
        .ok ((some hit, true), after) →
      ((∀ key, CountedByCall state.scheduler status numComputedTokens key →
        Resident after.manager key) ↔ TailSpares state.scheduler status numComputedTokens)

theorem hits_resident_of_tracked [LawfulCachePolicy P] [TrackedPolicy P] {policy : P}
    (tracked : TrackedPolicy.Tracked policy) : HitsResident policy := by
  intro config settings mambaAlignSize primaryParams params tiers answers clock state reaches
    reqId status numComputedTokens hit after found called
  have policyTracked : TrackedPolicy.Tracked state.scheduler.manager.primaryTier.policy := by
    apply reached_keeps tracked_keeps _ reaches
    exact tracked
  exact call_counts_resident_iff policyTracked found called

/-- When the call polls, the tier finishes its stores; it has the tail of the request. -/
def tailAnswers (poll : Nat) (stores : List JobId) (answered : Nat) : TierAnswer :=
  if answered = poll then { finished := stores.map fun jobId => ⟨jobId, true, []⟩ }
  else if answered = poll + 4 ∨ answered = poll + 5 then { lookup := .hit }
  else {}

abbrev TierRun := RunState (TieringOffloadingManager LruPolicy.LRUCachePolicy)

def tierStart (numBlocks : Nat) (answers : Nat → TierAnswer) : TierRun :=
  RunState.start (.fromSpec tailSpec) { mirrorLocal := false } (some 4)
    (.new {} (.new { numBlocks := numBlocks } (.new numBlocks)) [{}] answers)
    ⟨fun _ => 0, 0⟩

/-- The first chunk of a prompt is stored, and a longer request with that chunk arrives. -/
def tierEvents : List ConnectorEvent :=
  [.newRequest ⟨0, 5, 5, 0, [[0], [1]], .unfinished, false, .all, none⟩,
    .buildConnectorMeta
      { reqData := [⟨0, [[1], [3]], false⟩]
        newReqIds := [0]
        numScheduledTokens := OrderedMap.empty.set 0 5 },
    .updateConnectorOutput [(0, 1)],
    .newRequest (StoreOfferRuns.sharing 0),
    .buildConnectorMeta {}]

/-- The call counts the first chunk, for which the primary tier then answers. -/
def CountsFirst (state : TierRun) (status : RequestOffloadState) (answer : LookupResult) : Prop :=
  let scheduler := state.scheduler
  let asked := lookedUpStatus scheduler status 0
  (scheduler.getNumNewMatchedTokens 1 0).map (fun result =>
      (result.1, result.2.manager.primaryTier.lookupResult ⟨[1], 0⟩)) =
    .ok ((some 4, true), answer) ∧
  (lookupCompleteChunks scheduler.config scheduler.settings.mirrorLocal asked
      scheduler.mambaAlignSize scheduler.chunksBeingLoaded scheduler.manager).map Prod.fst =
    .ok (some 4) ∧
  scheduler.config.kvGroupConfigs.head?.map (fun group =>
      (group.groupIdx, group.tokensPerChunk, group.slidingWindowSizeInChunks)) =
    some (0, 4, none) ∧
  (asked.groupStates 0).offloadKeys[0]? = some ⟨[1], 0⟩

instance (state : TierRun) (status : RequestOffloadState) (answer : LookupResult) :
    Decidable (CountsFirst state status answer) := inferInstanceAs (Decidable (_ ∧ _ ∧ _ ∧ _))

theorem counts_first {state : TierRun} {status : RequestOffloadState} {answer : LookupResult}
    (first : CountsFirst state status answer) :
    CountedByCall state.scheduler status 0 ⟨[1], 0⟩ ∧
      ∃ after, state.scheduler.getNumNewMatchedTokens 1 0 = .ok ((some 4, true), after) ∧
        after.manager.primaryTier.lookupResult ⟨[1], 0⟩ = answer := by
  obtain ⟨called, complete, shape, found⟩ := first
  obtain ⟨⟨matched, after⟩, called, same⟩ := map_eq_ok.mp called
  obtain ⟨⟨completeHit, last⟩, complete, isHit⟩ := map_eq_ok.mp complete
  obtain ⟨group, isHead, shape⟩ := Option.map_eq_some_iff.mp shape
  simp only [Prod.mk.injEq] at same shape isHit
  obtain ⟨rfl, answered⟩ := same
  subst isHit
  refine ⟨.inl ⟨4, last, complete, by decide, group, List.mem_of_mem_head? isHead, 0, ?_, ?_⟩,
    after, called, answered⟩
  · refine ⟨(Nat.zero_div _).le, ?_, ?_⟩
    · show 0 < cdiv (0 + 4) group.tokensPerChunk
      rw [shape.2.1]
      decide
    · intro window isWindow
      rw [shape.2.2] at isWindow
      cases isWindow
  · rw [shape.1]
    exact found

/-- Another prompt is stored before. -/
def fullEvents : List ConnectorEvent :=
  [.newRequest ⟨2, 5, 5, 0, [[8], [9]], .unfinished, false, .all, none⟩,
    .buildConnectorMeta
      { reqData := [⟨2, [[2], [4]], false⟩]
        newReqIds := [2]
        numScheduledTokens := OrderedMap.empty.set 2 5 },
    .updateConnectorOutput [(0, 1)],
    .newRequest ⟨0, 5, 5, 0, [[0], [1]], .unfinished, false, .all, none⟩,
    .buildConnectorMeta
      { reqData := [⟨0, [[1], [3]], false⟩]
        newReqIds := [0]
        numScheduledTokens := OrderedMap.empty.set 0 5 },
    .updateConnectorOutput [(1, 1)],
    .newRequest (StoreOfferRuns.sharing 0),
    .buildConnectorMeta {}]

/-- The tail is about to evict the other prompt, and the call counts none of its chunks. -/
def EvictsOther (state : TierRun) (status : RequestOffloadState) : Prop :=
  let scheduler := state.scheduler
  let asked := lookedUpStatus scheduler status 0
  tailVictims scheduler.config asked scheduler.settings.mirrorLocal scheduler.mambaAlignSize
    scheduler.chunksBeingLoaded scheduler.manager = [⟨[9], 0⟩, ⟨[9], 1⟩] ∧
  ∀ group ∈ scheduler.config.kvGroupConfigs, ∀ chunkIdx < cdiv (0 + 4) group.tokensPerChunk,
    ∀ key ∈ (asked.groupStates group.groupIdx).offloadKeys[chunkIdx]?, key.blockHash = [1]

instance (state : TierRun) (status : RequestOffloadState) : Decidable (EvictsOther state status) :=
  inferInstanceAs (Decidable (_ ∧ _))

theorem evicts_other_spares {state : TierRun} {status : RequestOffloadState}
    {answer : LookupResult} (first : CountsFirst state status answer)
    (other : EvictsOther state status) : TailSpares state.scheduler status 0 := by
  obtain ⟨victims, chunks⟩ := other
  rintro key victim ⟨completeHit, last, complete, _, group, member, chunkIdx, counted, found⟩
  obtain ⟨_, known, _⟩ := first
  rw [complete] at known
  cases known
  have counts := chunks group member chunkIdx counted.2.1 key found
  rw [victims] at victim
  simp only [List.mem_cons, List.not_mem_nil, or_false] at victim
  rcases victim with rfl | rfl
  · cases counts
  · cases counts

end Runs

end KvOffload.ResidentHits
