import KvOffload.LoadAgreement

/-!
# Loads and the confirmed window

A lookup asks a window group from the boundary backwards until it has seen as many hits in a
row as the window has chunks. Where the answers depend on the key alone, no chunk before the
window that ends at the final boundary is asked. A load that starts before that window
therefore names a key that was never confirmed, and all its keys were confirmed exactly when
every pending block of a window group lies in the last chunks that its window spans.
-/

namespace KvOffload.ConfirmedLoads

open KvOffload KvOffload.Base KvOffload.PolicyInterface KvOffload.CpuManager KvOffload.CpuPool
open KvOffload.CpuManagerSpec KvOffload.ConnectorConfig KvOffload.ConnectorRequests
open KvOffload.ManagerInterface KvOffload.ManagerRecords KvOffload.ConnectorLookup
open KvOffload.ConnectorScheduler KvOffload.ConnectorLoads KvOffload.LookupCoverage
open KvOffload.LoadTransfer KvOffload.ResidentHits KvOffload.LoadAgreement

set_option autoImplicit false

section Scans

variable (answer : OffloadKey → LookupResult) (window : Nat)

/-- The hits in a row after one more key. -/
def nextHits (consecutiveHits : Nat) (key : OffloadKey) : Nat :=
  if answer key = .hit ∨ answer key = .hitPending then consecutiveHits + 1 else 0

/-- The keys that a window scan asks, the last key first. -/
def askedKeys (consecutiveHits : Nat) : List OffloadKey → List OffloadKey
  | [] => []
  | key :: rest =>
      key :: if nextHits answer consecutiveHits key = window then []
        else askedKeys (nextHits answer consecutiveHits key) rest

theorem asked_initial (consecutiveHits : Nat) (keys : List OffloadKey) :
    askedKeys answer window consecutiveHits keys <+: keys := by
  induction keys generalizing consecutiveHits with
  | nil => exact List.prefix_rfl
  | cons key rest ih =>
      unfold askedKeys
      rw [List.prefix_cons_inj]
      split
      · exact List.nil_prefix
      · exact ih _

/-- A run of hits that completes the window ends the scan. -/
theorem asked_run (run : Nat) {consecutiveHits : Nat} {keys : List OffloadKey}
    (positive : 0 < run) (completes : consecutiveHits + run = window)
    (hits : ∀ index < run, ∃ key, keys[index]? = some key ∧ answer key = .hit) :
    (askedKeys answer window consecutiveHits keys).length ≤ run := by
  induction run generalizing consecutiveHits keys with
  | zero => omega
  | succ run ih =>
      obtain ⟨key, found, isHit⟩ := hits 0 (Nat.succ_pos run)
      cases keys with
      | nil => cases found
      | cons first rest =>
          obtain rfl := Option.some.inj found
          have next : nextHits answer consecutiveHits first = consecutiveHits + 1 :=
            if_pos (.inl isHit)
          rw [askedKeys, next, List.length_cons]
          apply Nat.succ_le_succ
          split
          · exact Nat.zero_le run
          · exact ih (by omega) (by omega) fun index below =>
              hits (index + 1) (Nat.succ_lt_succ below)

/-- A whole window of hits ends the scan. -/
theorem asked_window (first : Nat) {consecutiveHits : Nat} {keys : List OffloadKey}
    (unfinished : consecutiveHits < window)
    (hits : ∀ index, first ≤ index → index < first + window →
      ∃ key, keys[index]? = some key ∧ answer key = .hit) :
    (askedKeys answer window consecutiveHits keys).length ≤ first + window := by
  induction first generalizing consecutiveHits keys with
  | zero =>
      have run := asked_run answer window (window - consecutiveHits)
        (Nat.sub_pos_of_lt unfinished) (Nat.add_sub_cancel' unfinished.le)
        fun index below => hits index (Nat.zero_le _) (by omega)
      omega
  | succ first ih =>
      cases keys with
      | nil => exact Nat.zero_le _
      | cons key rest =>
          rw [askedKeys, List.length_cons, Nat.succ_add]
          apply Nat.succ_le_succ
          split
          · exact Nat.zero_le _
          · rename_i more
            have next : nextHits answer consecutiveHits key ≤ consecutiveHits + 1 := by
              unfold nextHits
              split
              · exact le_rfl
              · exact Nat.zero_le _
            exact ih (by omega) fun index low high => hits (index + 1) (by omega) (by omega)

end Scans

section Logs

variable {M : Type} [OffloadingManager M]

/-- Answers depend on the key alone, and asking changes none of them. -/
structure Steady (Valid : M → Prop) (answer : M → OffloadKey → LookupResult) : Prop where
  answers : ∀ {manager after : M} {key : OffloadKey} {reqContext : ReqContext}
    {result : LookupResult}, Valid manager →
    OffloadingLookup.lookup manager key reqContext = .ok (result, after) →
      Valid after ∧ result = answer manager key ∧ answer after = answer manager
  touches : ∀ {manager : M} {keys : List OffloadKey}, Valid manager →
    Valid (OffloadingLookup.touch manager keys) ∧
      answer (OffloadingLookup.touch manager keys) = answer manager

/-- All answers after the first `base` are the fixed ones, and are for allowed keys. -/
structure Told (Valid : M → Prop) (answer : M → OffloadKey → LookupResult)
    (fixed : OffloadKey → LookupResult) (base : Nat) (Allowed : OffloadKey → Prop)
    (manager : Noted M) : Prop where
  valid : Valid manager.inner
  answers : answer manager.inner = fixed
  from_base : base ≤ manager.answers.length
  told : ∀ entry ∈ manager.answers.drop base, entry.2 = fixed entry.1 ∧ Allowed entry.1

variable {Valid : M → Prop} {answer : M → OffloadKey → LookupResult}
  {fixed : OffloadKey → LookupResult} {base : Nat} {Allowed : OffloadKey → Prop}
  {manager after : Noted M} {reqContext : ReqContext}

omit [OffloadingManager M] in
theorem Told.mono {Fewer : OffloadKey → Prop} (told : Told Valid answer fixed base Fewer manager)
    (more : ∀ key, Fewer key → Allowed key) : Told Valid answer fixed base Allowed manager :=
  ⟨told.valid, told.answers, told.from_base, fun entry member =>
    ⟨(told.told entry member).1, more _ (told.told entry member).2⟩⟩

theorem Told.touched (steady : Steady Valid answer)
    (told : Told Valid answer fixed base Allowed manager) (keys : List OffloadKey) :
    Told Valid answer fixed base Allowed (OffloadingLookup.touch manager keys) := by
  obtain ⟨valid, same⟩ := @Steady.touches _ _ _ _ steady manager.inner keys told.valid
  exact ⟨valid, same.trans told.answers, told.from_base, told.told⟩

theorem Told.looked (steady : Steady Valid answer)
    (told : Told Valid answer fixed base Allowed manager) {key : OffloadKey}
    {result : LookupResult} (allowed : Allowed key)
    (looked : OffloadingLookup.lookup manager key reqContext = .ok (result, after)) :
    Told Valid answer fixed base Allowed after ∧ result = fixed key := by
  obtain ⟨inner, innerLooked, rfl⟩ := lookup_told.mp looked
  obtain ⟨valid, isAnswer, same⟩ := steady.answers told.valid innerLooked
  rw [told.answers] at isAnswer same
  refine ⟨⟨valid, same, told.from_base.trans ?_, ?_⟩, isAnswer⟩
  · show _ ≤ (manager.answers ++ [(key, result)]).length
    rw [List.length_append]
    exact Nat.le_add_right _ _
  · intro entry member
    change entry ∈ (manager.answers ++ [(key, result)]).drop base at member
    rw [List.drop_append_of_le_length told.from_base, List.mem_append, List.mem_singleton]
      at member
    rcases member with before | rfl
    · exact told.told entry before
    · exact ⟨isAnswer, allowed⟩

theorem prefix_lookup_told (steady : Steady Valid answer) (mirrorLocal : Bool)
    (keys : List OffloadKey) {hitCount : Nat} {deferLookup : Bool} {result : Option Nat}
    (told : Told Valid answer fixed base Allowed manager) (allowed : ∀ key ∈ keys, Allowed key)
    (looked : maximalPrefixLookup mirrorLocal reqContext manager hitCount deferLookup keys =
      .ok (result, after)) : Told Valid answer fixed base Allowed after := by
  induction keys generalizing manager hitCount deferLookup with
  | nil =>
      cases looked
      exact told
  | cons key rest ih =>
      obtain ⟨⟨answered, next⟩, lookedKey, looked⟩ := bind_eq_ok.mp looked
      have nextTold := (told.looked steady (allowed key List.mem_cons_self) lookedKey).1
      have later := fun other member => allowed other (List.mem_cons_of_mem key member)
      cases answered with
      | hit =>
          simp only at looked
          split at looked
          · exact ih (nextTold.touched steady [key]) later looked
          · exact ih nextTold later looked
      | hitPending => exact ih nextTold later looked
      | retry => exact ih nextTold later looked
      | miss =>
          cases looked
          exact nextTold

theorem window_scan_told (steady : Steady Valid answer) (window : Nat) (keys : List OffloadKey)
    {consecutiveHits : Nat} {deferLookup : Bool} {result : Option Nat}
    (told : Told Valid answer fixed base Allowed manager)
    (allowed : ∀ key ∈ askedKeys fixed window consecutiveHits keys, Allowed key)
    (looked : slidingWindowScan window reqContext manager consecutiveHits deferLookup keys =
      .ok (result, after)) : Told Valid answer fixed base Allowed after := by
  induction keys generalizing manager consecutiveHits deferLookup with
  | nil =>
      cases looked
      exact told
  | cons key rest ih =>
      obtain ⟨⟨answered, next⟩, lookedKey, looked⟩ := bind_eq_ok.mp looked
      rw [askedKeys] at allowed
      obtain ⟨nextTold, isAnswer⟩ :=
        told.looked steady (allowed key List.mem_cons_self) lookedKey
      simp only at looked
      rw [isAnswer] at looked
      change (if nextHits fixed consecutiveHits key = window then _ else
        slidingWindowScan window reqContext next (nextHits fixed consecutiveHits key) _ rest) = _
        at looked
      split at looked
      · cases looked
        exact nextTold
      · rename_i more
        rw [if_neg more] at allowed
        exact ih nextTold (fun other member => allowed other (List.mem_cons_of_mem key member))
          looked

end Logs

section Groups

variable (config : SchedulerOffloadConfig) (status : RequestOffloadState)
  (fixed : OffloadKey → LookupResult)

/-- The keys of different chunks differ. -/
def KeysApart : Prop :=
  ∀ group ∈ config.kvGroupConfigs, ∀ other ∈ config.kvGroupConfigs, ∀ (chunkIdx otherIdx : Nat)
    (key : OffloadKey),
    (status.groupStates group.groupIdx).offloadKeys[chunkIdx]? = some key →
    (status.groupStates other.groupIdx).offloadKeys[otherIdx]? = some key →
      group = other ∧ chunkIdx = otherIdx

/-- Between the chunk and the stop no window consists of hits. -/
def NoWindowAfter (keys : List OffloadKey) (window chunkIdx stop : Nat) : Prop :=
  ∀ first, chunkIdx < first → first + window ≤ stop →
    ¬∀ index, first ≤ index → index < first + window →
      ∃ key, keys[index]? = some key ∧ fixed key = .hit

/-- A chunk of a window group is reached only where no window behind it was found. -/
def Reached (boundary : Nat) (key : OffloadKey) : Prop :=
  ∀ group ∈ config.kvGroupConfigs, group.isEagleGroup = false →
    ∀ window, group.slidingWindowSizeInChunks = some window → ∀ chunkIdx,
      (status.groupStates group.groupIdx).offloadKeys[chunkIdx]? = some key →
        NoWindowAfter fixed (status.groupStates group.groupIdx).offloadKeys window chunkIdx
          (cdiv boundary group.tokensPerChunk)

variable {config status fixed}

theorem reached_mono {lower boundary : Nat} (le : lower ≤ boundary) (key : OffloadKey)
    (reached : Reached config status fixed boundary key) :
    Reached config status fixed lower key := by
  intro group member plain window isWindow chunkIdx isKey first behind inside
  exact reached group member plain window isWindow chunkIdx isKey first behind
    (inside.trans (cdiv_mono _ le))

/-- A scan from the stop backwards asks no chunk before a window of hits. -/
theorem asked_no_window {window start stop : Nat} {keys : List OffloadKey} (positive : 0 < window)
    (stop_le : stop ≤ keys.length) {key : OffloadKey}
    (asked : key ∈ askedKeys fixed window 0 ((keys.take stop).drop start).reverse) :
    ∃ chunkIdx, keys[chunkIdx]? = some key ∧ NoWindowAfter fixed keys window chunkIdx stop := by
  have length : ((keys.take stop).drop start).length = stop - start := by
    rw [List.length_drop, List.length_take, min_eq_left stop_le]
  have reversed : ∀ index < stop - start,
      ((keys.take stop).drop start).reverse[index]? = keys[stop - 1 - index]? := by
    intro index below
    rw [List.getElem?_reverse (by omega), slice_get _ _ _ _ (by omega), length]
    congr 1
    omega
  obtain ⟨index, within, isKey⟩ := List.getElem_of_mem asked
  obtain ⟨behind, split⟩ := asked_initial fixed window 0 ((keys.take stop).drop start).reverse
  have below : index < stop - start := by
    have total := congrArg List.length split
    rw [List.length_append, List.length_reverse, length] at total
    omega
  refine ⟨stop - 1 - index, ?_, fun first later inside hits => ?_⟩
  · rw [← reversed index below, ← split, List.getElem?_append_left within,
      List.getElem?_eq_getElem within, isKey]
  · have short := @asked_window fixed window (stop - first - window) 0
      ((keys.take stop).drop start).reverse positive fun other low high => by
        rw [reversed other (by omega)]
        exact hits _ (by omega) (by omega)
    omega

variable {M : Type} [OffloadingManager M] {Valid : M → Prop}
  {answer : M → OffloadKey → LookupResult} {base numComputedTokens : Nat} {mirrorLocal : Bool}

theorem query_told (steady : Steady Valid answer) (apart : KeysApart config status)
    {group : GroupOffloadConfig} (member : group ∈ config.kvGroupConfigs) {capped : Nat}
    (capped_le : capped ≤
      (status.groupStates group.groupIdx).offloadKeys.length * group.tokensPerChunk)
    {unverified : Bool} (plain : group.isEagleGroup = false → unverified = false)
    {manager last : Noted M} {result : Option Nat}
    (told : Told Valid answer fixed base (Reached config status fixed capped) manager)
    (queried : queryGroup mirrorLocal status group
      (queriedKeys (status.groupStates group.groupIdx).offloadKeys group numComputedTokens capped
        unverified) unverified manager = .ok (result, last)) :
    Told Valid answer fixed base (Reached config status fixed capped) last := by
  have positive := chunk_pos member
  have enough : cdiv capped group.tokensPerChunk ≤
      (status.groupStates group.groupIdx).offloadKeys.length :=
    (cdiv_le_iff positive).mpr (capped_le.trans_eq (Nat.mul_comm _ _))
  unfold queryGroup at queried
  split at queried
  · rename_i full
    apply prefix_lookup_told steady mirrorLocal _ told _ queried
    intro key asked other otherMember _ window isWindow chunkIdx isKey
    have listed := List.mem_of_mem_take (List.mem_of_mem_drop asked)
    obtain ⟨index, within, found⟩ := List.getElem_of_mem listed
    obtain ⟨rfl, _⟩ := apart group member other otherMember index chunkIdx key
      (List.getElem?_eq_some_iff.mpr ⟨within, found⟩) isKey
    rw [full] at isWindow
    cases isWindow
  · rename_i window isWindow
    cases eagle : group.isEagleGroup with
    | true =>
        apply window_scan_told steady _ _ told _ queried
        intro key asked other otherMember plainOther _ _ chunkIdx isKey
        have queriedKey := List.mem_reverse.mp ((asked_initial _ _ _ _).subset asked)
        have listed := List.mem_of_mem_take (List.mem_of_mem_drop queriedKey)
        obtain ⟨index, within, found⟩ := List.getElem_of_mem listed
        obtain ⟨rfl, _⟩ := apart group member other otherMember index chunkIdx key
          (List.getElem?_eq_some_iff.mpr ⟨within, found⟩) isKey
        rw [eagle] at plainOther
        cases plainOther
    | false =>
        obtain rfl := plain eagle
        apply window_scan_told steady window _ told _ queried
        intro key asked other otherMember _ otherWindow isOther chunkIdx isKey
        simp only [queriedKeys, Bool.false_and, Bool.false_eq_true, if_false,
          min_eq_left enough] at asked
        obtain ⟨asked, found, none⟩ := asked_no_window
          ((config.well_formed group member).window_pos window isWindow) enough asked
        obtain ⟨rfl, rfl⟩ := apart group member other otherMember asked chunkIdx key found isKey
        cases isWindow.symm.trans isOther
        exact none

theorem group_told (steady : Steady Valid answer) (apart : KeysApart config status)
    {group : GroupOffloadConfig} (member : group ∈ config.kvGroupConfigs)
    {state after : Convergence numComputedTokens} {manager last : Noted M}
    (told : Told Valid answer fixed base (Reached config status fixed state.maxHitSizeTokens)
      manager)
    (looked : lookupGroup config mirrorLocal status state manager group =
      .ok (some after, last)) :
    Told Valid answer fixed base (Reached config status fixed after.maxHitSizeTokens) last := by
  obtain ⟨_, ⟨_, early, _⟩ | ⟨_, numHitChunks, queried, answered⟩⟩ := lookup_group_ok looked
  · cases early
  · obtain ⟨boundary, le, _, maxHit, _⟩ := tighten_eq_some answered.symm
    have capped := told.mono (reached_mono (min_le_left state.maxHitSizeTokens
      ((status.groupStates group.groupIdx).offloadKeys.length * group.tokensPerChunk)))
    have queriedTold := query_told steady apart member (min_le_right _ _)
      (fun plain => by rw [Convergence.eagleUnverified, plain, Bool.false_and]) capped queried
    rw [maxHit]
    exact queriedTold.mono (reached_mono le)

theorem pass_told (steady : Steady Valid answer) (apart : KeysApart config status)
    (groups : List GroupOffloadConfig) {state after : Convergence numComputedTokens}
    {manager last : Noted M} (members : ∀ group ∈ groups, group ∈ config.kvGroupConfigs)
    (told : Told Valid answer fixed base (Reached config status fixed state.maxHitSizeTokens)
      manager)
    (passed : lookupPass config mirrorLocal status state manager groups =
      .ok (some after, last)) :
    Told Valid answer fixed base (Reached config status fixed after.maxHitSizeTokens) last := by
  induction groups generalizing state manager with
  | nil =>
      cases passed
      exact told
  | cons group rest ih =>
      obtain ⟨⟨middle, next⟩, looked, passed⟩ := bind_eq_ok.mp passed
      cases middle with
      | none => cases passed
      | some middle =>
          exact ih (fun other member => members other (List.mem_cons_of_mem _ member))
            (group_told steady apart (members group List.mem_cons_self) told looked) passed

/-- The groups of a further pass are groups of the configuration. -/
theorem again_members {groups : List GroupOffloadConfig}
    {state after : Convergence numComputedTokens} {manager last : Noted M}
    (members : ∀ group ∈ groups, group ∈ config.kvGroupConfigs)
    (passed : lookupPass config mirrorLocal status state.startPass manager groups =
      .ok (some after, last)) :
    ∀ group ∈ after.lookupGroups, group ∈ config.kvGroupConfigs := by
  have inv := pass_keeps_inv no_facts groups members (start_inv trivial) passed
  intro group again
  rcases inv.restart with none | all | windows
  · rw [none] at again
    cases again
  · exact config.mem_lookup_groups.mp (all ▸ again)
  · exact (config.mem_sliding_window_groups.mp (windows ▸ again)).1

/-- A returned hit was looked up without reaching before the windows that end at it. -/
theorem complete_lookup_told (steady : Steady Valid answer) (apart : KeysApart config status)
    {mambaAlignSize : Option Nat} {chunksBeingLoaded : Option (Finset OffloadKey)}
    {manager last : Noted M} {numHitTokens : Nat} (valid : Valid manager.inner)
    (positive : 0 < numHitTokens)
    (looked : lookupCompleteChunks config mirrorLocal status mambaAlignSize chunksBeingLoaded
      manager = .ok (some numHitTokens, last)) :
    Told Valid answer (answer manager.inner) manager.answers.length
      (Reached config status (answer manager.inner)
        (status.numLocallyComputedTokens + numHitTokens)) last := by
  obtain ⟨⟨result, middle⟩, converged, looked⟩ := bind_eq_ok.mp looked
  cases result with
  | none =>
      cases looked
      exact absurd positive (lt_irrefl 0)
  | some after =>
      have covered := converge_covers no_facts trivial rfl converged
      have told : Told Valid answer (answer manager.inner) manager.answers.length
          (Reached config status (answer manager.inner) after.maxHitSizeTokens) middle := by
        refine ((@converge_rule (Noted M) _ config mirrorLocal status
          status.numLocallyComputedTokens
          (fun groups state reached => (∀ group ∈ groups, group ∈ config.kvGroupConfigs) ∧
            Told Valid answer (answer manager.inner) manager.answers.length
              (Reached config status (answer manager.inner) state.maxHitSizeTokens) reached)
          True ?_ (fun _ _ _ _ _ _ _ => trivial) _ _ _ _ _ ?_ converged).2 after rfl).2
        · intro group rest state reached next settled inv passed
          have told : Told Valid answer (answer manager.inner) manager.answers.length
            (Reached config status (answer manager.inner) state.startPass.maxHitSizeTokens)
            reached := inv.2
          exact ⟨again_members inv.1 passed, pass_told steady apart _ inv.1 told passed⟩
        · exact ⟨fun group member => config.mem_lookup_groups.mp member, valid, rfl, le_rfl,
            by simp⟩
      simp only at looked
      split at looked
      · cases looked
      · rename_i settled
        split at looked
        · cases looked
        · cases looked
          obtain ⟨hit_eq, _⟩ := covered.done rfl (by simpa using settled) positive
          rw [hit_eq, Nat.add_sub_cancel' (by omega)]
          exact told

end Groups

section Loads

/-- In a window group every block still to be filled below the boundary lies in one of the
last chunks that the window spans. -/
def PendingNearBoundary (config : SchedulerOffloadConfig) (boundary : Nat)
    (blocks : List (List KVCacheBlock)) : Prop :=
  ∀ group ∈ config.kvGroupConfigs, ∀ window, group.slidingWindowSizeInChunks = some window →
    ∀ groupBlocks, blocks[group.groupIdx]? = some groupBlocks →
      ∀ index < cdiv boundary group.tokensPerBlock, ∀ block, groupBlocks[index]? = some block →
        block.isPending = true →
          cdiv boundary group.tokensPerChunk ≤ index / config.blocksPerChunk + window

variable {config : SchedulerOffloadConfig} {boundary : Nat} {blocks : List (List KVCacheBlock)}

theorem first_pending_le {group : GroupOffloadConfig} {groupBlocks : List KVCacheBlock}
    {index : Nat} {block : KVCacheBlock}
    (found : groupBlocks[index]? = some block) (pending : block.isPending = true) :
    firstPending boundary group groupBlocks ≤ index := by
  by_contra before
  have earlier := List.not_of_lt_findIdx (Nat.lt_of_not_le before)
  rw [List.getElem_take, (List.getElem?_eq_some_iff.mp found).2, pending] at earlier
  cases earlier

/-- Where the blocks reach the boundary, it is enough to look at the first pending one. -/
theorem pending_in_window {status : RequestOffloadState} {plan : LoadPlan}
    (planned : planLoads config status boundary blocks (LoadPlan.start config.numKvCacheGroups)
      config.kvGroupConfigs = .ok plan)
    (near : PendingNearBoundary config boundary blocks) :
    PendingInWindow config boundary blocks := by
  intro group member window isWindow groupBlocks listed pending
  obtain ⟨loads, covered, each, _⟩ := plan_loads_spec _ planned
  obtain ⟨⟨_, load⟩, entry, rfl⟩ := List.mem_map.mp (covered ▸ member)
  obtain ⟨_, sameBlocks, spec⟩ := load_group_loaded member (each _ entry)
  cases listed.symm.trans sameBlocks
  obtain ⟨block, found, isPending⟩ := first_pending_block (by
    rw [List.length_take]
    exact lt_min pending (pending.trans_le spec.enough))
  exact near _ member window isWindow groupBlocks listed _ pending block found isPending

variable {M : Type} [OffloadingManager M] {spec : OffloadingSpec}
  {scheduler after : OffloadingConnectorScheduler (Noted M)} {reqId : ReqId}
  {numComputedTokens hit : Nat}

/-- A call with tokens to load has keys up to its boundary, and with steady answers asked no
chunk before the windows that end there. -/
theorem called_told (attention : AttentionOnly spec)
    (configured : scheduler.config = .fromSpec spec)
    (called : scheduler.getNumNewMatchedTokens reqId numComputedTokens =
      .ok ((some hit, true), after))
    {status : RequestOffloadState} (found : after.reqStatus.get? reqId = some status) :
    (∀ group ∈ after.config.kvGroupConfigs, status.numLocallyComputedTokens + hit ≤
      (status.groupStates group.groupIdx).offloadKeys.length * group.tokensPerChunk) ∧
    ∀ (Valid : M → Prop) (answer : M → OffloadKey → LookupResult), Steady Valid answer →
      Valid scheduler.manager.inner → KeysApart after.config status →
        Told Valid answer (answer scheduler.manager.inner) scheduler.manager.answers.length
          (Reached after.config status (answer scheduler.manager.inner)
            (status.numLocallyComputedTokens + hit)) after.manager := by
  have tracked : ∃ status, scheduler.reqStatus.get? reqId = some status := by
    obtain ⟨status, found, _⟩ := bind_eq_ok.mp called
    exact ⟨status, py_item_eq_ok.mp found⟩
  obtain ⟨earlier, tracked⟩ := tracked
  obtain ⟨positive, tail, last, looked, keeps, config, matched, foundAfter, left⟩ :=
    matched_looked tracked called
  cases foundAfter.symm.trans found
  have noTail : scheduler.config.supportsPartialTail = false := by
    rw [configured]
    exact attention_supports_no_tail attention
  obtain ⟨rfl, complete⟩ := lookup_without_tail noTail looked
  obtain ⟨_, covered⟩ := lookup_complete_chunks_covers no_facts trivial positive complete
  rw [config, left.computed]
  constructor
  · intro group member
    rw [left.keys]
    exact (covered group member).inside
  · intro Valid answer steady valid apart
    have same : Reached scheduler.config status (answer scheduler.manager.inner) =
        Reached scheduler.config (lookedUpStatus scheduler earlier numComputedTokens)
          (answer scheduler.manager.inner) := by
      funext boundary key
      simp only [Reached, left.keys]
    simp only [KeysApart, left.keys] at apart
    have told := complete_lookup_told steady apart valid positive complete
    rw [same]
    exact keeps _ (fun _ keys told => told.touched steady keys) told

/-- Every key that a load passes to `prepare_load` was answered `HIT` by the call that promised
the tokens, and such keys are served, if each pending block of a window group lies in the last
chunks of its window. With steady answers, distinct chunk keys and no EAGLE window groups the
keys were answered `HIT` only then. -/
theorem loads_confirmed_near_boundary (attention : AttentionOnly spec)
    (configured : scheduler.config = .fromSpec spec)
    (called : scheduler.getNumNewMatchedTokens reqId numComputedTokens =
      .ok ((some hit, true), after))
    {status : RequestOffloadState} (found : after.reqStatus.get? reqId = some status)
    (isBoundary : boundary = status.numLocallyComputedTokens + hit) {plan : LoadPlan}
    (planned : planLoads after.config status boundary blocks
      (LoadPlan.start after.config.numKvCacheGroups) after.config.kvGroupConfigs = .ok plan) :
    (PendingNearBoundary after.config boundary blocks →
      (∀ key ∈ plan.keysToLoad,
        AnsweredHit scheduler.manager.answers.length after.manager key) ∧
      ∀ (Valid : M → Prop) (Known : M → OffloadKey → Prop), HitsServed Valid Known →
        Valid scheduler.manager.inner →
          ∃ loaded, OffloadingManager.prepareLoad after.manager plan.keysToLoad = .ok loaded) ∧
    ∀ (Valid : M → Prop) (answer : M → OffloadKey → LookupResult), Steady Valid answer →
      Valid scheduler.manager.inner → KeysApart after.config status →
      (∀ group ∈ after.config.kvGroupConfigs, group.slidingWindowSizeInChunks.isSome = true →
        group.isEagleGroup = false) →
      (∀ key ∈ plan.keysToLoad,
        AnsweredHit scheduler.manager.answers.length after.manager key) →
          PendingNearBoundary after.config boundary blocks := by
  subst isBoundary
  obtain ⟨_, _, _, matched⟩ := counted_known no_facts attention configured trivial called
  obtain ⟨complete, _, known⟩ := matched status found
  obtain ⟨keys, behind⟩ := plan_keys_chunks complete planned
  obtain ⟨inside, told⟩ := called_told attention configured called found
  constructor
  · intro near
    have inWindow := pending_in_window planned near
    constructor
    · intro key inKeys
      obtain ⟨group, member, chunkIdx, loads, isKey⟩ := (keys key).mp inKeys
      have counted :=
        window_loads_counted inWindow member (behind group member chunkIdx loads) loads
      exact (known group member chunkIdx counted key isKey).2
    · intro Valid Known served valid
      obtain ⟨_, afterValid, _, matched⟩ :=
        counted_known served.toLookupFacts attention configured valid called
      obtain ⟨_, _, servedKnown⟩ := matched status found
      have serves : ∀ key ∈ plan.keysToLoad, Known after.manager.inner key := by
        intro key inKeys
        obtain ⟨group, member, chunkIdx, loads, isKey⟩ := (keys key).mp inKeys
        have counted :=
          window_loads_counted inWindow member (behind group member chunkIdx loads) loads
        exact (servedKnown group member chunkIdx counted key isKey).1
      obtain ⟨⟨blockIds, inner⟩, accepted⟩ := served.serves afterValid serves
      exact ⟨_, congrArg (Except.map fun result => (result.1,
        after.manager.told (.prepareLoad plan.keysToLoad result.1) result.2)) accepted⟩
  · intro Valid answer steady valid apart plain confirmed group member window isWindow groupBlocks
      listed index below block blockAt pending
    have asked := (told Valid answer steady valid apart).told
    generalize boundary_eq : status.numLocallyComputedTokens + hit = boundary at *
    have wellFormed := after.config.well_formed group member
    have positive := chunk_pos member
    have keyed : cdiv boundary group.tokensPerChunk ≤
        (status.groupStates group.groupIdx).offloadKeys.length :=
      (cdiv_le_iff positive).mpr ((inside group member).trans_eq (Nat.mul_comm _ _))
    have chunkInside := (pending_chunks wellFormed after.config.blocks_pos below).1
    have first : firstPending boundary group groupBlocks ≤ index :=
      first_pending_le blockAt pending
    have loads : LoadsChunk after.config boundary blocks group
        (index / after.config.blocksPerChunk) :=
      ⟨groupBlocks, listed, first.trans_lt below, Nat.div_le_div_right first, chunkInside⟩
    have started := behind group member _ loads
    generalize index / after.config.blocksPerChunk = loadedChunk at *
    have loaded := (keys _).mpr ⟨group, member, _, loads,
      List.getElem?_eq_getElem (chunkInside.trans_le keyed)⟩
    have reached := (asked _ (confirmed _ loaded)).2 group member
      (plain group member (isWindow ▸ rfl)) window isWindow _
        (List.getElem?_eq_getElem (chunkInside.trans_le keyed))
    by_contra short
    refine reached (cdiv boundary group.tokensPerChunk - window) (by omega) (by omega) ?_
    intro chunkIdx low high
    have within : chunkIdx < cdiv boundary group.tokensPerChunk := by omega
    have found := List.getElem?_eq_getElem (within.trans_le keyed)
    have counted : Counted group status.numLocallyComputedTokens boundary chunkIdx := by
      refine ⟨started.trans (by omega), within, fun size isSize => ?_⟩
      cases isWindow.symm.trans isSize
      omega
    exact ⟨_, found, (asked _ (known group member chunkIdx counted _ found).2).1.symm⟩

end Loads

/-- Chunk keys differ as soon as the hashes of each group do. -/
theorem keys_apart_of_nodup {config : SchedulerOffloadConfig} {status : RequestOffloadState}
    (nodup : ∀ group ∈ config.kvGroupConfigs,
      (status.groupStates group.groupIdx).offloadKeys.Nodup)
    (tagged : ∀ group ∈ config.kvGroupConfigs,
      ∀ key ∈ (status.groupStates group.groupIdx).offloadKeys, key.groupIdx = group.groupIdx) :
    KeysApart config status := by
  intro group member other otherMember chunkIdx otherIdx key found otherFound
  have sameIdx : group.groupIdx = other.groupIdx :=
    (tagged group member key (List.mem_of_getElem? found)).symm.trans
      (tagged other otherMember key (List.mem_of_getElem? otherFound))
  have distinct : (config.kvGroupConfigs.map GroupOffloadConfig.groupIdx).Nodup :=
    List.pairwise_map.mpr (config.ordered.imp fun lower => lower.ne)
  obtain rfl := List.inj_on_of_nodup_map distinct member otherMember sameIdx
  have inside := (List.getElem?_eq_some_iff.mp found).1
  exact ⟨rfl, (List.getElem?_inj inside (nodup group member)).mp (found.trans otherFound.symm)⟩

/-- The CPU manager answers by what it holds, which no lookup changes. -/
theorem cpu_steady {P : Type} [CachePolicy P] [LawfulCachePolicy P] :
    Steady (PoolInv : CPUOffloadingManager P → Prop) CPUOffloadingManager.lookupResult where
  answers {manager after key _ result} pool looked := by
    obtain ⟨same, answered⟩ := lookup_spec looked
    refine ⟨same_pool_inv same pool, answered, funext fun other => ?_⟩
    simp only [CPUOffloadingManager.lookupResult, same_pool_get same]
  touches {manager keys} pool := by
    obtain ⟨touched, same⟩ := touch_ok pool keys
    refine ⟨touched, funext fun other => ?_⟩
    show (manager.touch keys).lookupResult other = _
    simp only [CPUOffloadingManager.lookupResult, same]

section Sample

theorem slope_pending_near : PendingNearBoundary (.fromSpec slopeSpec) 3 slopeBlocks := by
  intro config member window isWindow groupBlocks found index below block blockAt pending
  obtain ⟨group, groupMember, rfl⟩ := List.mem_map.mp member
  change group ∈ slopeGroups at groupMember
  simp only [slopeGroups, List.mem_cons, List.not_mem_nil, or_false] at groupMember
  rcases groupMember with rfl | rfl
  · cases isWindow
    cases found
    rcases index with _ | _ | index
    · cases blockAt
      cases pending
    · decide
    · cases blockAt
  · cases isWindow

/-- What the call of the sample leaves: the plan of its load and the keys of both groups. -/
def slopeAnswers : Except PyError ((Option Nat × Bool) × Nat × List OffloadKey ×
    List OffloadKey × List OffloadKey) := do
  let (matched, after) ← slopeScheduler.getNumNewMatchedTokens 0 0
  let status ← after.statusOf 0
  let plan ← planLoads after.config status 3 slopeBlocks
    (LoadPlan.start after.config.numKvCacheGroups) after.config.kvGroupConfigs
  .ok (matched, status.numLocallyComputedTokens, plan.keysToLoad,
    (status.groupStates 0).offloadKeys, (status.groupStates 1).offloadKeys)

/-- Both loaded keys were answered `HIT`, as every pending block lies near the boundary. -/
theorem slope_loads_confirmed :
    ∃ (after : OffloadingConnectorScheduler SlopeManager) (plan : LoadPlan),
      slopeScheduler.getNumNewMatchedTokens 0 0 = .ok ((some 3, true), after) ∧
      plan.keysToLoad = [⟨[3], 0⟩, ⟨[2], 1⟩] ∧
      ((∀ key ∈ plan.keysToLoad, AnsweredHit 0 after.manager key) ↔
        PendingNearBoundary (.fromSpec slopeSpec) 3 slopeBlocks) ∧
      (∀ key ∈ plan.keysToLoad, AnsweredHit 0 after.manager key) ∧
      ∃ loaded, OffloadingManager.prepareLoad after.manager plan.keysToLoad = .ok loaded := by
  have ran : slopeAnswers = .ok ((some 3, true), 0, [⟨[3], 0⟩, ⟨[2], 1⟩],
      [⟨[1], 0⟩, ⟨[3], 0⟩], [⟨[2], 1⟩]) := by
    decide +kernel
  obtain ⟨⟨matched, after⟩, called, rest⟩ := bind_eq_ok.mp ran
  obtain ⟨status, found, rest⟩ := bind_eq_ok.mp rest
  obtain ⟨plan, planned, seen⟩ := bind_eq_ok.mp rest
  simp only [Except.ok.injEq, Prod.mk.injEq] at seen
  obtain ⟨rfl, computed, keys, windowKeys, fullKeys⟩ := seen
  have config := (counted_known no_facts slope_attention rfl trivial called).1
  have groups : ∀ {Holds : GroupOffloadConfig → Prop}, Holds (slopeSpec.groupConfig ⟨2, 0⟩) →
      Holds (slopeSpec.groupConfig ⟨3, 1⟩) → ∀ group ∈ after.config.kvGroupConfigs,
        Holds group := by
    intro Holds window full group member
    rw [config] at member
    change group ∈ [slopeSpec.groupConfig ⟨2, 0⟩, slopeSpec.groupConfig ⟨3, 1⟩] at member
    simp only [List.mem_cons, List.not_mem_nil, or_false] at member
    rcases member with rfl | rfl
    · exact window
    · exact full
  obtain ⟨confirms, exact⟩ := loads_confirmed_near_boundary slope_attention rfl called
    (ConnectorMoves.status_of_ok found) (by rw [computed]) planned
  have apart : KeysApart after.config status := by
    apply keys_apart_of_nodup
    · apply groups
      · show (status.groupStates 0).offloadKeys.Nodup
        rw [windowKeys]
        decide
      · show (status.groupStates 1).offloadKeys.Nodup
        rw [fullKeys]
        decide
    · apply groups
      · show ∀ key ∈ (status.groupStates 0).offloadKeys, key.groupIdx = 0
        rw [windowKeys]
        decide
      · show ∀ key ∈ (status.groupStates 1).offloadKeys, key.groupIdx = 1
        rw [fullKeys]
        decide
  have plain : ∀ group ∈ after.config.kvGroupConfigs,
      group.slidingWindowSizeInChunks.isSome = true → group.isEagleGroup = false :=
    groups (fun _ => rfl) fun _ => rfl
  rw [config] at confirms exact apart plain
  obtain ⟨answered, serves⟩ := confirms slope_pending_near
  refine ⟨after, plan, called, keys, ⟨?_, fun _ => answered⟩, answered,
    serves _ _ cpu_hits_served slope_manager_pool⟩
  exact exact _ _ cpu_steady slope_manager_pool apart plain

/-- A window of one chunk beside a full group with shorter chunks. -/
def overrunSpec : OffloadingSpec where
  groups := [⟨3, 0⟩, ⟨2, 1⟩]
  kvCacheGroups := [⟨.slidingWindow 3 (by decide), false⟩, ⟨.fullAttention, false⟩]
  blocksPerChunk := 1
  tokensPerHash := 1
  worldSize := 1
  decodeContextParallelSize := 1
  offloadPromptOnly := false
  useEagle := false
  ordered := by decide
  bounded := by decide
  blocks_pos := Nat.one_pos
  hash_pos := Nat.one_pos
  hash_fits := by decide

/-- The second chunk of the window group and two chunks of the full group. -/
def overrunKeys : List OffloadKey := [⟨[5], 0⟩, ⟨[1], 1⟩, ⟨[3], 1⟩]

def overrunManager : CPUOffloadingManager LruPolicy.LRUCachePolicy :=
  let manager := CPUOffloadingManager.new { numBlocks := 4 } (LruPolicy.LRUCachePolicy.new 4)
  ((manager.prepareStore overrunKeys true).bind fun stored =>
    stored.2.completeStore overrunKeys true).toOption.getD manager

def overrunScheduler : OffloadingConnectorScheduler SlopeManager :=
  let req : Request := ⟨0, 7, 7, 0, [[0], [1], [2], [3], [4], [5], [6]], .unfinished, false, .all,
    none⟩
  (OffloadingConnectorScheduler.new (.fromSpec overrunSpec) { mirrorLocal := false } none
    ⟨overrunManager, {}⟩ ⟨fun _ => 0, 0⟩).setStatus 0
      (RequestOffloadState.new req (createReqContext req) .blockLevel)

/-- The window of the boundary reaches into the first block, so it is allocated too. -/
def overrunBlocks : List (List KVCacheBlock) :=
  [[⟨4, false, false⟩, ⟨5, false, false⟩], [⟨6, false, false⟩, ⟨7, false, false⟩]]

def overrunCall : Except PyError
    ((Option Nat × Bool) × List OffloadKey × List (OffloadKey × LookupResult) ×
      Option PyError) := do
  let (matched, after) ← overrunScheduler.getNumNewMatchedTokens 0 0
  let status ← after.statusOf 0
  let plan ← planLoads after.config status 4 overrunBlocks
    (LoadPlan.start after.config.numKvCacheGroups) after.config.kvGroupConfigs
  .ok (matched, plan.keysToLoad, after.manager.answers,
    raised (updateStateAfterAlloc after 0 overrunBlocks 4))

theorem overrun_stock : StockPadded overrunSpec 4 overrunBlocks := by
  intro group member slidingWindow positive isSliding groupBlocks found index block blockAt
  change group ∈ [_, _] at member
  simp only [List.mem_cons, List.not_mem_nil, or_false] at member
  rcases member with rfl | rfl
  · cases isSliding
    cases found
    rcases index with _ | _ | index
    · cases blockAt
      decide
    · cases blockAt
      decide
    · cases blockAt
  · cases isSliding

/-- Four tokens are promised, a boundary inside the second chunk of the window group. Its
window reaches back into the first chunk, which is loaded although it was never looked up. -/
theorem load_overruns_window :
    ∃ (after : OffloadingConnectorScheduler SlopeManager) (status : RequestOffloadState)
      (plan : LoadPlan),
      overrunScheduler.getNumNewMatchedTokens 0 0 = .ok ((some 4, true), after) ∧
      after.statusOf 0 = .ok status ∧ StockPadded overrunSpec 4 overrunBlocks ∧
      planLoads after.config status 4 overrunBlocks
        (LoadPlan.start after.config.numKvCacheGroups) after.config.kvGroupConfigs = .ok plan ∧
      ⟨[2], 0⟩ ∈ plan.keysToLoad ∧ ¬AnsweredHit 0 after.manager ⟨[2], 0⟩ ∧
      updateStateAfterAlloc after 0 overrunBlocks 4 = .error .assertionError := by
  have ran : overrunCall = .ok ((some 4, true), [⟨[2], 0⟩, ⟨[5], 0⟩, ⟨[1], 1⟩, ⟨[3], 1⟩],
      [(⟨[1], 1⟩, .hit), (⟨[3], 1⟩, .hit), (⟨[5], 1⟩, .miss), (⟨[5], 0⟩, .hit)],
      some .assertionError) := by
    decide +kernel
  obtain ⟨⟨matched, after⟩, called, rest⟩ := bind_eq_ok.mp ran
  obtain ⟨status, found, rest⟩ := bind_eq_ok.mp rest
  obtain ⟨plan, planned, seen⟩ := bind_eq_ok.mp rest
  simp only [Except.ok.injEq, Prod.mk.injEq] at seen
  obtain ⟨rfl, keys, answers, problem⟩ := seen
  refine ⟨after, status, plan, called, found, overrun_stock, planned, ?_, ?_,
    raised_eq_some.mp problem⟩
  · rw [keys]
    exact List.mem_cons_self
  · rw [AnsweredHit, answers]
    decide

end Sample

end KvOffload.ConfirmedLoads
