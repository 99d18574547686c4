import KvOffload.ConnectorLookup

/-!
# What a lookup confirms

`Known` stands for whatever a hit tells about a key, and is only lost by an
answer that reserves a block. A lookup that returns a boundary without deferring
has every chunk counted for that boundary known, for each group: the chunks from
the computed tokens on for full attention, the last chunks of the window for a
window group. EAGLE groups are included.
-/

namespace KvOffload.LookupCoverage

open KvOffload KvOffload.Base KvOffload.ConnectorConfig KvOffload.ConnectorRequests
open KvOffload.ManagerInterface KvOffload.ConnectorLookup

set_option autoImplicit false

variable {M : Type} [OffloadingLookup M]

/-- What the search relies on: a hit makes its key known, and keys stay known
unless an answer is `HIT_PENDING`. -/
structure LookupFacts (Valid : M → Prop) (Known : M → OffloadKey → Prop) : Prop where
  hit : ∀ {manager after : M} {key : OffloadKey} {reqContext : ReqContext}, Valid manager →
    OffloadingLookup.lookup manager key reqContext = .ok (.hit, after) → Known after key
  kept : ∀ {manager after : M} {key other : OffloadKey} {reqContext : ReqContext}
    {result : LookupResult}, Valid manager →
    OffloadingLookup.lookup manager key reqContext = .ok (result, after) →
    result ≠ .hitPending → Known manager other → Known after other
  valid : ∀ {manager after : M} {key : OffloadKey} {reqContext : ReqContext}
    {result : LookupResult}, Valid manager →
    OffloadingLookup.lookup manager key reqContext = .ok (result, after) → Valid after
  touch_kept : ∀ {manager : M} {keys : List OffloadKey} {other : OffloadKey}, Valid manager →
    Known manager other → Known (OffloadingLookup.touch manager keys) other
  touch_valid : ∀ {manager : M} {keys : List OffloadKey}, Valid manager →
    Valid (OffloadingLookup.touch manager keys)

section Scans

variable {Valid : M → Prop} {Known : M → OffloadKey → Prop} {reqContext : ReqContext}

/-- Nothing known is lost between two states. -/
def Retains (Known : M → OffloadKey → Prop) (manager after : M) : Prop :=
  ∀ key, Known manager key → Known after key

theorem prefix_lookup_known (facts : LookupFacts Valid Known) (mirrorLocal : Bool)
    (keys : List OffloadKey) {manager after : M} {hitCount : Nat} {deferLookup : Bool}
    {result : Option Nat} (valid : Valid manager)
    (looked : maximalPrefixLookup mirrorLocal reqContext manager hitCount deferLookup keys =
      .ok (result, after)) :
    Valid after ∧ ∀ hits, result = some hits → deferLookup = false ∧
      Retains Known manager after ∧ ∃ count ≤ keys.length, hits = hitCount + count ∧
        ∀ index < count, ∀ key, keys[index]? = some key → Known after key := by
  induction keys generalizing manager hitCount deferLookup with
  | nil =>
      cases looked
      refine ⟨valid, fun hits isHits => ?_⟩
      cases deferLookup with
      | true => cases isHits
      | false =>
          cases isHits
          exact ⟨rfl, fun _ known => known, 0, le_rfl, rfl, by simp⟩
  | cons key rest ih =>
      obtain ⟨⟨answer, answered⟩, lookedKey, looked⟩ := bind_eq_ok.mp looked
      have answeredValid := facts.valid valid lookedKey
      cases answer with
      | miss =>
          cases looked
          refine ⟨answeredValid, fun hits isHits => ?_⟩
          cases deferLookup with
          | true => cases isHits
          | false =>
              cases isHits
              exact ⟨rfl, fun _ known => facts.kept valid lookedKey (by simp) known, 0,
                Nat.zero_le _, rfl, by simp⟩
      | hit =>
          simp only at looked
          generalize touched_eq : (if mirrorLocal then OffloadingLookup.touch answered [key]
            else answered) = touched at looked
          have touchedSpec : Valid touched ∧ Retains Known answered touched := by
            rw [← touched_eq]
            split
            · exact ⟨facts.touch_valid answeredValid,
                fun _ known => facts.touch_kept answeredValid known⟩
            · exact ⟨answeredValid, fun _ known => known⟩
          obtain ⟨afterValid, later⟩ := ih touchedSpec.1 looked
          refine ⟨afterValid, fun hits isHits => ?_⟩
          obtain ⟨notDeferred, retains, count, le, hits_eq, known⟩ := later hits isHits
          refine ⟨notDeferred, ?_, count + 1, ?_, by omega, ?_⟩
          · exact fun other before =>
              retains other (touchedSpec.2 other (facts.kept valid lookedKey (by simp) before))
          · simpa using le
          · intro index below other found
            cases index with
            | zero =>
                obtain rfl := Option.some.inj found
                exact retains key (touchedSpec.2 key (facts.hit valid lookedKey))
            | succ index => exact known index (by omega) other (by simpa using found)
      | hitPending =>
          obtain ⟨afterValid, later⟩ := ih answeredValid looked
          exact ⟨afterValid, fun hits isHits => absurd (later hits isHits).1 (by simp)⟩
      | retry =>
          obtain ⟨afterValid, later⟩ := ih answeredValid looked
          exact ⟨afterValid, fun hits isHits => absurd (later hits isHits).1 (by simp)⟩

/-- The scan has `above` behind it, whose first `consecutiveHits` keys are known. -/
theorem window_scan_known (facts : LookupFacts Valid Known) (window : Nat)
    (keys above : List OffloadKey) {manager after : M} {consecutiveHits : Nat}
    {deferLookup : Bool} {result : Option Nat} (valid : Valid manager)
    (inside : consecutiveHits ≤ above.length)
    (run : deferLookup = false → ∀ index < consecutiveHits, ∀ key, above[index]? = some key →
      Known manager key)
    (looked : slidingWindowScan window reqContext manager consecutiveHits deferLookup keys =
      .ok (result, after)) :
    Valid after ∧ ∀ hits, result = some hits → deferLookup = false ∧
      Retains Known manager after ∧ hits ≤ keys.length + above.length ∧
        ∀ index < hits, hits ≤ index + window → ∀ key,
          (keys.reverse ++ above)[index]? = some key → Known after key := by
  induction keys generalizing manager consecutiveHits deferLookup above with
  | nil =>
      cases looked
      refine ⟨valid, fun hits isHits => ?_⟩
      cases deferLookup with
      | true => cases isHits
      | false =>
          cases isHits
          exact ⟨rfl, fun _ known => known, by simpa using inside,
            fun index below _ key found => run rfl index below key (by simpa using found)⟩
  | cons key rest ih =>
      obtain ⟨⟨answer, answered⟩, lookedKey, looked⟩ := bind_eq_ok.mp looked
      have answeredValid := facts.valid valid lookedKey
      simp only at looked
      generalize hits_eq : (if answer = .hit ∨ answer = .hitPending then consecutiveHits + 1
        else 0) = consecutive at looked
      generalize defer_eq : (deferLookup || decide (answer = .hitPending ∨ answer = .retry)) =
        deferred at looked
      have settled : deferred = false → deferLookup = false ∧ answer ≠ .hitPending := by
        rintro rfl
        rw [Bool.or_eq_false_iff, decide_eq_false_iff_not, not_or] at defer_eq
        exact ⟨defer_eq.1, defer_eq.2.1⟩
      have inside' : consecutive ≤ (key :: above).length := by
        rw [← hits_eq, List.length_cons]
        split <;> omega
      have run' : deferred = false → ∀ index < consecutive, ∀ other,
          (key :: above)[index]? = some other → Known answered other := by
        intro isSettled index below other found
        obtain ⟨before, notPending⟩ := settled isSettled
        rw [← hits_eq] at below
        split at below
        · rename_i isHit
          cases index with
          | zero =>
              obtain rfl := Option.some.inj found
              exact facts.hit valid (isHit.resolve_right notPending ▸ lookedKey)
          | succ index =>
              exact facts.kept valid lookedKey notPending
                (run before index (by omega) other (by simpa using found))
        · omega
      have retained : deferred = false → Retains Known manager answered := fun isSettled _ known =>
        facts.kept valid lookedKey (settled isSettled).2 known
      split at looked
      · rename_i full
        cases looked
        refine ⟨answeredValid, fun hits isHits => ?_⟩
        cases deferred with
        | true => cases isHits
        | false =>
            cases isHits
            refine ⟨(settled rfl).1, retained rfl, ?_, ?_⟩
            · simp only [List.length_cons] at inside' ⊢
              omega
            · intro index _ low other found
              have high : rest.length ≤ index := by omega
              rw [List.reverse_cons, List.append_assoc, List.singleton_append,
                List.getElem?_append_right (by simpa using high), List.length_reverse] at found
              exact run' rfl (index - rest.length) (by omega) other found
      · obtain ⟨afterValid, later⟩ := ih (key :: above) answeredValid inside' run' looked
        refine ⟨afterValid, fun hits isHits => ?_⟩
        obtain ⟨isSettled, retains, le, known⟩ := later hits isHits
        refine ⟨(settled isSettled).1, fun other before =>
          retains other (retained isSettled other before), ?_, ?_⟩
        · simp only [List.length_cons] at le ⊢
          omega
        · intro index below low other found
          exact known index below low other (by simpa using found)

theorem window_lookup_known (facts : LookupFacts Valid Known) {window : Nat}
    {keys : List OffloadKey} {manager after : M} {result : Option Nat} (valid : Valid manager)
    (looked : slidingWindowLookup keys window reqContext manager = .ok (result, after)) :
    Valid after ∧ ∀ hits, result = some hits → Retains Known manager after ∧
      hits ≤ keys.length ∧ ∀ index < hits, hits ≤ index + window → ∀ key,
        keys[index]? = some key → Known after key := by
  obtain ⟨afterValid, spec⟩ := window_scan_known facts window keys.reverse [] valid
    (Nat.zero_le _) (by simp) looked
  refine ⟨afterValid, fun hits isHits => ?_⟩
  obtain ⟨_, retains, le, known⟩ := spec hits isHits
  refine ⟨retains, by simpa using le, fun index below low key found => ?_⟩
  exact known index below low key (by simpa using found)

end Scans

section Groups

variable {Valid : M → Prop} {Known : M → OffloadKey → Prop}
  {config : SchedulerOffloadConfig} {mirrorLocal : Bool} {status : RequestOffloadState}
  {numComputedTokens : Nat}

/-- The chunks a group counts for a boundary: from the computed tokens on, and at
most the window of a window group. -/
def Counted (group : GroupOffloadConfig) (numComputedTokens boundary chunkIdx : Nat) : Prop :=
  numComputedTokens / group.tokensPerChunk ≤ chunkIdx ∧
    chunkIdx < cdiv boundary group.tokensPerChunk ∧
    ∀ window, group.slidingWindowSizeInChunks = some window →
      cdiv boundary group.tokensPerChunk ≤ chunkIdx + window

/-- The group has keys up to the boundary, and the counted ones are known. -/
structure Covered (Known : OffloadKey → Prop) (status : RequestOffloadState)
    (group : GroupOffloadConfig) (numComputedTokens boundary : Nat) : Prop where
  inside : boundary ≤
    (status.groupStates group.groupIdx).offloadKeys.length * group.tokensPerChunk
  known : ∀ chunkIdx, Counted group numComputedTokens boundary chunkIdx → ∀ key,
    (status.groupStates group.groupIdx).offloadKeys[chunkIdx]? = some key → Known key

omit [OffloadingLookup M] in
theorem covered_retained {manager after : M} (retains : Retains Known manager after)
    {group : GroupOffloadConfig} {boundary : Nat}
    (covered : Covered (Known manager) status group numComputedTokens boundary) :
    Covered (Known after) status group numComputedTokens boundary :=
  ⟨covered.inside, fun chunkIdx counted key found =>
    retains key (covered.known chunkIdx counted key found)⟩

/-- A full-attention group covers every smaller boundary too. -/
theorem covered_lower {Known : OffloadKey → Prop} {group : GroupOffloadConfig}
    (full : group.slidingWindowSizeInChunks = none) {boundary smaller : Nat}
    (le : smaller ≤ boundary)
    (covered : Covered Known status group numComputedTokens boundary) :
    Covered Known status group numComputedTokens smaller := by
  refine ⟨le.trans covered.inside, fun chunkIdx counted => covered.known chunkIdx ?_⟩
  exact ⟨counted.1, counted.2.1.trans_le (cdiv_mono _ le), by simp [full]⟩

theorem slice_get {α : Type} (items : List α) (start stop index : Nat) (inside : start + index < stop) :
    ((items.take stop).drop start)[index]? = items[start + index]? := by
  rw [List.getElem?_drop, List.getElem?_take_of_lt inside]

theorem slice_length {α : Type} (items : List α) (start stop : Nat) :
    ((items.take stop).drop start).length ≤ stop - start := by
  rw [List.length_drop, List.length_take]
  exact Nat.sub_le_sub_right (min_le_left _ _) _

/-- The last queried chunk is at most one past the boundary, and only for an
EAGLE window group that has not dropped its trailing chunk yet. -/
theorem query_stop_le {offloadKeys : List OffloadKey} {group : GroupOffloadConfig}
    {capped : Nat} (positive : 0 < group.tokensPerChunk) (isEagleUnverified : Bool) :
    min (cdiv (if isEagleUnverified && group.slidingWindowSizeInChunks.isSome then
        min (capped + group.tokensPerChunk) (offloadKeys.length * group.tokensPerChunk)
      else capped) group.tokensPerChunk) offloadKeys.length ≤
    cdiv capped group.tokensPerChunk +
      (isEagleUnverified && group.slidingWindowSizeInChunks.isSome).toNat := by
  apply (min_le_left _ _).trans
  split
  · rename_i extra
    rw [extra, Bool.toNat_true, ← cdiv_add_self capped positive]
    exact cdiv_mono _ (min_le_left _ _)
  · rename_i plain
    simp [plain]

/-- A group that answers without deferring covers its new boundary. -/
theorem query_covers (facts : LookupFacts Valid Known) {group : GroupOffloadConfig}
    (positive : 0 < group.tokensPerChunk)
    (window_pos : ∀ window, group.slidingWindowSizeInChunks = some window → 0 < window)
    {manager after : M} (valid : Valid manager) {capped : Nat} {isEagleUnverified : Bool}
    (capped_le : capped ≤
      (status.groupStates group.groupIdx).offloadKeys.length * group.tokensPerChunk)
    {result : Option Nat}
    (queried : queryGroup mirrorLocal status group
      (queriedKeys (status.groupStates group.groupIdx).offloadKeys group numComputedTokens capped
        isEagleUnverified) isEagleUnverified manager = .ok (result, after)) :
    Valid after ∧ ∀ hits, result = some (hits + 1) → Retains Known manager after ∧
      Covered (Known after) status group numComputedTokens
        (min capped (group.tokensPerChunk * (numComputedTokens / group.tokensPerChunk +
          if isEagleUnverified then hits else hits + 1))) := by
  generalize keys_eq : (status.groupStates group.groupIdx).offloadKeys = offloadKeys
    at capped_le queried
  generalize start_eq : numComputedTokens / group.tokensPerChunk = start
  generalize stop_eq : min (cdiv (if isEagleUnverified && group.slidingWindowSizeInChunks.isSome
      then min (capped + group.tokensPerChunk) (offloadKeys.length * group.tokensPerChunk)
      else capped) group.tokensPerChunk) offloadKeys.length = stop
  have queried_eq : queriedKeys offloadKeys group numComputedTokens capped isEagleUnverified =
      (offloadKeys.take stop).drop start := by
    rw [← stop_eq, ← start_eq]
    rfl
  have stop_le : stop ≤ cdiv capped group.tokensPerChunk +
      (isEagleUnverified && group.slidingWindowSizeInChunks.isSome).toNat :=
    stop_eq ▸ query_stop_le positive isEagleUnverified
  rw [queried_eq] at queried
  -- a run of known keys of the slice, seen as chunks of the request
  have chunk_known : ∀ {hits : Nat}, hits ≤ ((offloadKeys.take stop).drop start).length →
      ∀ chunkIdx, start ≤ chunkIdx → chunkIdx < start + hits →
        ((offloadKeys.take stop).drop start)[chunkIdx - start]? = offloadKeys[chunkIdx]? := by
    intro hits le chunkIdx low high
    have shorter := slice_length offloadKeys start stop
    rw [slice_get _ _ _ _ (by omega), show start + (chunkIdx - start) = chunkIdx by omega]
  unfold queryGroup at queried
  split at queried
  · rename_i full
    obtain ⟨afterValid, spec⟩ := prefix_lookup_known facts mirrorLocal _ valid queried
    refine ⟨afterValid, fun hits isHits => ?_⟩
    obtain ⟨_, retains, count, le, count_eq, known⟩ := spec _ isHits
    refine ⟨retains, ⟨keys_eq ▸ (min_le_left _ _).trans capped_le, ?_⟩⟩
    intro chunkIdx counted key found
    have low := counted.1
    have high := counted.2.1
    rw [start_eq] at low
    rw [cdiv_min _ _ positive, lt_min_iff] at high
    have below : chunkIdx < start + count := by
      have := high.2
      split at this <;> omega
    rw [keys_eq] at found
    exact known (chunkIdx - start) (by omega) key
      ((chunk_known le chunkIdx low below).trans found)
  · rename_i window isWindow
    obtain ⟨afterValid, spec⟩ := window_lookup_known facts valid queried
    refine ⟨afterValid, fun hits isHits => ?_⟩
    obtain ⟨retains, le, known⟩ := spec _ isHits
    refine ⟨retains, ⟨keys_eq ▸ (min_le_left _ _).trans capped_le, ?_⟩⟩
    intro chunkIdx counted key found
    have shorter := slice_length offloadKeys start stop
    have positiveWindow := window_pos window isWindow
    obtain ⟨low, high, inWindow⟩ := counted
    have tail := inWindow window isWindow
    rw [start_eq] at low
    rw [cdiv_min _ _ positive] at high tail
    simp only [isWindow, Option.isSome_some, Bool.and_true] at stop_le
    rw [keys_eq] at found
    cases isEagleUnverified with
    | true =>
        simp only [Bool.toNat_true, if_true] at stop_le high tail known
        exact known (chunkIdx - start) (by omega) (by omega) key
          ((chunk_known le chunkIdx low (by omega)).trans found)
    | false =>
        simp only [Bool.toNat_false, Bool.false_eq_true, if_false] at stop_le high tail known
        exact known (chunkIdx - start) (by omega) (by omega) key
          ((chunk_known le chunkIdx low (by omega)).trans found)

end Groups

section Passes

variable {Valid : M → Prop} {Known : M → OffloadKey → Prop}
  {config : SchedulerOffloadConfig} {mirrorLocal : Bool} {status : RequestOffloadState}
  {numComputedTokens : Nat}

theorem converge_cons (state : Convergence numComputedTokens) (manager : M)
    (group : GroupOffloadConfig) (rest : List GroupOffloadConfig) :
    converge config mirrorLocal status state manager (group :: rest) =
      (lookupPass config mirrorLocal status state.startPass manager (group :: rest) >>=
        fun result =>
          match result.1 with
          | none => .ok (none, result.2)
          | some after => converge config mirrorLocal status after result.2 after.lookupGroups) := by
  rw [converge]
  split <;> rename_i passed <;> rw [passed] <;> rfl

theorem lookup_pass_append (first second : List GroupOffloadConfig)
    (state : Convergence numComputedTokens) (manager : M) :
    lookupPass config mirrorLocal status state manager (first ++ second) =
      (lookupPass config mirrorLocal status state manager first >>= fun result =>
        match result.1 with
        | none => .ok (none, result.2)
        | some after => lookupPass config mirrorLocal status after result.2 second) := by
  induction first generalizing state manager with
  | nil => rfl
  | cons group rest ih =>
      simp only [List.cons_append, lookupPass, bind_assoc]
      congr 1
      funext result
      rcases result with ⟨_ | middle, next⟩
      · rfl
      · exact ih middle next

/-- The rule for the passes: what one pass turns into its successor holds at the
end, and a pass that gives up ends the search. -/
theorem converge_rule
    {Inv : List GroupOffloadConfig → Convergence numComputedTokens → M → Prop} {Stopped : Prop}
    (pass : ∀ group rest state manager after last, Inv (group :: rest) state manager →
      lookupPass config mirrorLocal status state.startPass manager (group :: rest) =
        .ok (some after, last) → Inv after.lookupGroups after last)
    (stop : ∀ group rest state manager last, Inv (group :: rest) state manager →
      lookupPass config mirrorLocal status state.startPass manager (group :: rest) =
        .ok (none, last) → Stopped)
    (groups : List GroupOffloadConfig) (state : Convergence numComputedTokens) (manager : M)
    {result : Option (Convergence numComputedTokens)} {last : M}
    (start : Inv groups state manager)
    (converged : converge config mirrorLocal status state manager groups = .ok (result, last)) :
    (result = none → Stopped) ∧ ∀ after, result = some after → Inv [] after last := by
  induction state, manager, groups using
      @converge.induct M inferInstance config mirrorLocal status numComputedTokens with
  | case1 state manager =>
      rw [converge] at converged
      cases converged
      refine ⟨nofun, fun after same => ?_⟩
      cases same
      exact start
  | case2 state manager group rest problem failed =>
      obtain ⟨_, passed, _⟩ := bind_eq_ok.mp ((converge_cons _ _ _ _).symm.trans converged)
      cases failed.symm.trans passed
  | case3 state manager group rest middle passed =>
      obtain ⟨_, same, done⟩ := bind_eq_ok.mp ((converge_cons _ _ _ _).symm.trans converged)
      cases passed.symm.trans same
      cases done
      exact ⟨fun _ => stop _ _ _ _ _ start passed, nofun⟩
  | case4 state manager group rest after middle passed ih =>
      obtain ⟨_, same, later⟩ := bind_eq_ok.mp ((converge_cons _ _ _ _).symm.trans converged)
      cases passed.symm.trans same
      exact ih (pass _ _ _ _ _ _ start passed) later

/-- The groups a pass has behind it, with the full-attention groups of earlier
passes. Until the search starts over, full-attention groups stay covered; until a
window group has to be looked up again, so do window groups, with at least one
chunk to load. -/
structure PassInv (Valid : M → Prop) (Known : M → OffloadKey → Prop)
    (config : SchedulerOffloadConfig) (status : RequestOffloadState)
    (visited : List GroupOffloadConfig) (state : Convergence numComputedTokens)
    (manager : M) : Prop where
  valid : Valid manager
  full : state.deferLookup = false → state.lookupGroups ≠ config.lookupGroups →
    ∀ group ∈ visited, group.slidingWindowSizeInChunks = none →
      Covered (Known manager) status group numComputedTokens state.maxHitSizeTokens
  windows : state.deferLookup = false → state.lookupGroups = [] →
    ∀ group ∈ visited, group.slidingWindowSizeInChunks.isSome = true →
      Covered (Known manager) status group numComputedTokens state.maxHitSizeTokens ∧
        group.tokensPerChunk ≤ state.maxHitSizeTokens - numComputedTokens
  noWindow : state.lookedUpSlidingWindow = false →
    ∀ group ∈ visited, group.slidingWindowSizeInChunks = none
  synced : visited = [] ∨ (0 < state.numHitTokens ∧
    state.numHitTokens = state.maxHitSizeTokens - numComputedTokens)
  known_groups : ∀ group ∈ visited, group ∈ config.kvGroupConfigs
  restart : state.lookupGroups = [] ∨ state.lookupGroups = config.lookupGroups ∨
    state.lookupGroups = config.slidingWindowGroups

/-- How `conclude` moves the flags of the search. -/
theorem conclude_flags {state after : Convergence numComputedTokens}
    {group : GroupOffloadConfig} {boundary : Nat} {deferLookup : Bool} {eagleVerified : List Nat}
    (concluded : state.conclude config group boundary deferLookup eagleVerified = some after) :
    group.tokensPerChunk ≤ boundary - numComputedTokens ∧ after.maxHitSizeTokens = boundary ∧
      after.numHitTokens = boundary - numComputedTokens ∧
      after.lookedUpSlidingWindow =
        (state.lookedUpSlidingWindow || group.slidingWindowSizeInChunks.isSome) ∧
      (if boundary - numComputedTokens < state.numHitTokens then
        after.deferLookup = false ∧ after.lookupGroups =
          if deferLookup = true then config.lookupGroups
          else if state.lookedUpSlidingWindow = true ∧ state.lookupGroups = [] then
            config.slidingWindowGroups
          else state.lookupGroups
      else after.deferLookup = deferLookup ∧ after.lookupGroups = state.lookupGroups) := by
  unfold Convergence.conclude at concluded
  simp only at concluded
  split at concluded
  · cases concluded
  · rename_i enough
    cases concluded
    refine ⟨Nat.le_of_not_lt enough, rfl, rfl, rfl, ?_⟩
    by_cases tightened : boundary - numComputedTokens < state.numHitTokens
    · rw [if_pos tightened]
      constructor
      · simp [tightened]
      · cases deferLookup <;> cases state.lookedUpSlidingWindow <;> simp [tightened]
    · rw [if_neg tightened]
      constructor <;> simp [tightened]

theorem chunk_pos {group : GroupOffloadConfig} (member : group ∈ config.kvGroupConfigs) :
    0 < group.tokensPerChunk := by
  have formed := config.well_formed group member
  rw [formed.chunk_eq]
  exact Nat.mul_pos formed.block_pos config.blocks_pos

theorem restart_of_flags {groups after : List GroupOffloadConfig} {tightened deferred seen : Prop}
    [Decidable tightened] [Decidable deferred] [Decidable seen] {first second : Prop}
    (before : groups = [] ∨ groups = config.lookupGroups ∨ groups = config.slidingWindowGroups)
    (flags : if tightened then first ∧ after =
        if deferred then config.lookupGroups
        else if seen then config.slidingWindowGroups else groups
      else second ∧ after = groups) :
    after = [] ∨ after = config.lookupGroups ∨ after = config.slidingWindowGroups := by
  split at flags
  · rw [flags.2]
    split
    · exact .inr (.inl rfl)
    · split
      · exact .inr (.inr rfl)
      · exact before
  · rw [flags.2]
    exact before

omit [OffloadingLookup M] in
/-- An answer that defers leaves nothing to keep: either the search starts over or
it stays deferred. -/
theorem deferred_keeps_inv {visited : List GroupOffloadConfig}
    {state after : Convergence numComputedTokens} {manager last : M}
    {group : GroupOffloadConfig} {capped : Nat}
    (inv : PassInv Valid Known config status visited state manager)
    (member : group ∈ config.kvGroupConfigs) (valid : Valid last)
    (concluded : state.conclude config group capped true state.eagleVerified = some after) :
    PassInv Valid Known config status (visited ++ [group]) after last := by
  obtain ⟨enough, maxHit, numHit, lookedUp, flags⟩ := conclude_flags concluded
  have positive := chunk_pos member
  have restarted : after.deferLookup = false → after.lookupGroups = config.lookupGroups := by
    intro settled
    split at flags
    · rw [flags.2, if_pos rfl]
    · rw [flags.1] at settled
      cases settled
  have nonempty : config.lookupGroups ≠ [] :=
    List.ne_nil_of_mem (config.mem_lookup_groups.mpr member)
  refine ⟨valid, ?_, ?_, ?_, .inr ⟨by omega, by rw [numHit, maxHit]⟩, ?_,
    restart_of_flags inv.restart flags⟩
  · exact fun settled notFull => absurd (restarted settled) notFull
  · exact fun settled none => absurd ((restarted settled).symm.trans none) nonempty
  · intro none other otherMember
    rw [lookedUp, Bool.or_eq_false_iff] at none
    rcases List.mem_append.mp otherMember with before | this
    · exact inv.noWindow none.1 other before
    · rw [List.mem_singleton.mp this]
      exact Option.isSome_eq_false_iff.mp none.2 |> Option.isNone_iff_eq_none.mp
  · intro other otherMember
    rcases List.mem_append.mp otherMember with before | this
    · exact inv.known_groups other before
    · rwa [List.mem_singleton.mp this]

omit [OffloadingLookup M] in
/-- An answer that covers its boundary keeps what stays covered. -/
theorem covered_keeps_inv {visited : List GroupOffloadConfig}
    {state after : Convergence numComputedTokens} {manager last : M}
    {group : GroupOffloadConfig} {boundary : Nat} {eagleVerified : List Nat}
    (inv : PassInv Valid Known config status visited state manager)
    (member : group ∈ config.kvGroupConfigs) (valid : Valid last)
    (retains : Retains Known manager last) (le : boundary ≤ state.maxHitSizeTokens)
    (covered : Covered (Known last) status group numComputedTokens boundary)
    (concluded : state.conclude config group boundary state.deferLookup eagleVerified =
      some after) :
    PassInv Valid Known config status (visited ++ [group]) after last := by
  obtain ⟨enough, maxHit, numHit, lookedUp, flags⟩ := conclude_flags concluded
  have positive := chunk_pos member
  have nonempty : config.lookupGroups ≠ [] :=
    List.ne_nil_of_mem (config.mem_lookup_groups.mpr member)
  have groups_known : ∀ other ∈ visited ++ [group], other ∈ config.kvGroupConfigs := by
    intro other otherMember
    rcases List.mem_append.mp otherMember with before | this
    · exact inv.known_groups other before
    · rwa [List.mem_singleton.mp this]
  -- without tightening the boundary of the visited groups has not moved
  have unmoved : ¬boundary - numComputedTokens < state.numHitTokens → visited ≠ [] →
      boundary = state.maxHitSizeTokens := by
    intro notTightened visitedSome
    obtain ⟨hit_pos, synced⟩ := inv.synced.resolve_left visitedSome
    omega
  have old : ∀ other ∈ visited,
      Covered (Known manager) status other numComputedTokens state.maxHitSizeTokens →
      (other.slidingWindowSizeInChunks = none ∨
        ¬boundary - numComputedTokens < state.numHitTokens) →
      Covered (Known last) status other numComputedTokens boundary := by
    intro other otherMember before how
    have kept := covered_retained retains before
    rcases how with full | notTightened
    · exact covered_lower full le kept
    · exact unmoved notTightened (List.ne_nil_of_mem otherMember) ▸ kept
  refine ⟨valid, ?_, ?_, ?_, .inr ⟨by omega, by rw [numHit, maxHit]⟩, groups_known,
    restart_of_flags inv.restart flags⟩
  · intro settled notFull other otherMember full
    rw [maxHit]
    rcases List.mem_append.mp otherMember with before | this
    · refine old other before ?_ (.inl full)
      split at flags
      · cases deferred : state.deferLookup with
        | true => exact absurd (by rw [flags.2, if_pos deferred]) notFull
        | false =>
            refine inv.full deferred ?_ other before full
            intro same
            simp only [deferred, Bool.false_eq_true, if_false] at flags
            split at flags
            · rename_i again
              exact nonempty (same.symm.trans again.2)
            · exact notFull (flags.2.trans same)
      · exact inv.full (flags.1 ▸ settled) (flags.2 ▸ notFull) other before full
    · rw [List.mem_singleton.mp this]
      exact covered
  · intro settled none other otherMember window
    rw [maxHit]
    rcases List.mem_append.mp otherMember with before | this
    · split at flags
      · exfalso
        rw [flags.2] at none
        split at none
        · exact nonempty none
        · split at none
          · have known := config.mem_sliding_window_groups.mpr
              ⟨groups_known other otherMember, window⟩
            rw [none] at known
            cases known
          · rename_i notAgain
            have unseen : state.lookedUpSlidingWindow = false := by
              by_contra seen
              exact notAgain ⟨by simpa using seen, none⟩
            rw [inv.noWindow unseen other before] at window
            cases window
      · rename_i notTightened
        obtain ⟨oldCovered, oldEnough⟩ :=
          inv.windows (flags.1 ▸ settled) (flags.2 ▸ none) other before window
        have same := unmoved notTightened (List.ne_nil_of_mem before)
        exact ⟨old other before oldCovered (.inr notTightened), same ▸ oldEnough⟩
    · rw [List.mem_singleton.mp this]
      exact ⟨covered, enough⟩
  · intro none other otherMember
    rw [lookedUp, Bool.or_eq_false_iff] at none
    rcases List.mem_append.mp otherMember with before | this
    · exact inv.noWindow none.1 other before
    · rw [List.mem_singleton.mp this]
      exact Option.isSome_eq_false_iff.mp none.2 |> Option.isNone_iff_eq_none.mp

theorem group_keeps_inv (facts : LookupFacts Valid Known) {visited : List GroupOffloadConfig}
    {state after : Convergence numComputedTokens} {manager last : M}
    {group : GroupOffloadConfig} (member : group ∈ config.kvGroupConfigs)
    (inv : PassInv Valid Known config status visited state manager)
    (looked : lookupGroup config mirrorLocal status state manager group =
      .ok (some after, last)) :
    PassInv Valid Known config status (visited ++ [group]) after last := by
  obtain ⟨_, ⟨_, early, _⟩ | ⟨_, numHitChunks, queried, answered⟩⟩ := lookup_group_ok looked
  · cases early
  · obtain ⟨valid, covers⟩ := query_covers facts (chunk_pos member)
      (config.well_formed group member).window_pos inv.valid (min_le_right _ _) queried
    cases numHitChunks with
    | none => exact deferred_keeps_inv inv member valid answered.symm
    | some numHitChunks =>
        cases numHitChunks with
        | zero => cases answered
        | succ hits =>
            obtain ⟨retains, covered⟩ := covers hits rfl
            exact covered_keeps_inv inv member valid retains
              ((min_le_left _ _).trans (min_le_left _ _)) covered answered.symm

theorem pass_keeps_inv (facts : LookupFacts Valid Known) (groups : List GroupOffloadConfig)
    {visited : List GroupOffloadConfig} {state after : Convergence numComputedTokens}
    {manager last : M} (members : ∀ group ∈ groups, group ∈ config.kvGroupConfigs)
    (inv : PassInv Valid Known config status visited state manager)
    (passed : lookupPass config mirrorLocal status state manager groups =
      .ok (some after, last)) :
    PassInv Valid Known config status (visited ++ groups) after last := by
  induction groups generalizing state manager visited with
  | nil =>
      cases passed
      simpa using inv
  | cons group rest ih =>
      obtain ⟨⟨middle, next⟩, looked, passed⟩ := bind_eq_ok.mp passed
      cases middle with
      | none => cases passed
      | some middle =>
          have step := group_keeps_inv facts (members group List.mem_cons_self) inv looked
          have later := ih (fun other member => members other (List.mem_cons_of_mem _ member))
            step passed
          simpa using later

/-- Before a pass over `groups`: the groups not in it are visited. After the last
pass every group is covered unless the search is deferred. -/
structure SearchInv (Valid : M → Prop) (Known : M → OffloadKey → Prop)
    (config : SchedulerOffloadConfig) (status : RequestOffloadState)
    (groups : List GroupOffloadConfig) (state : Convergence numComputedTokens)
    (manager : M) : Prop where
  valid : Valid manager
  members : ∀ group ∈ groups, group ∈ config.kvGroupConfigs
  visited : groups ≠ [] → ∃ visited,
    PassInv Valid Known config status visited state.startPass manager ∧
      ∀ group ∈ config.kvGroupConfigs, group ∈ visited ∨ group ∈ groups
  done : groups = [] → state.deferLookup = false → 0 < state.numHitTokens →
    state.numHitTokens = state.maxHitSizeTokens - numComputedTokens ∧
      ∀ group ∈ config.kvGroupConfigs,
        Covered (Known manager) status group numComputedTokens state.maxHitSizeTokens ∧
          (group.slidingWindowSizeInChunks.isSome = true →
            group.tokensPerChunk ≤ state.maxHitSizeTokens - numComputedTokens)

omit [OffloadingLookup M] in
theorem start_inv {state : Convergence numComputedTokens} {manager : M}
    (valid : Valid manager) :
    PassInv Valid Known config status [] state.startPass manager :=
  ⟨valid, by simp, by simp, by simp, .inl rfl, by simp, .inl rfl⟩

omit [OffloadingLookup M] in
/-- The pass that was just made prepares the next one. -/
theorem search_inv_of_pass {visited : List GroupOffloadConfig}
    {state : Convergence numComputedTokens} {manager : M}
    (inv : PassInv Valid Known config status visited state manager) (nonempty : visited ≠ [])
    (all : ∀ group ∈ config.kvGroupConfigs, group ∈ visited) :
    SearchInv Valid Known config status state.lookupGroups state manager := by
  obtain ⟨first, firstMember⟩ := List.exists_mem_of_ne_nil visited nonempty
  have someGroup : config.lookupGroups ≠ [] :=
    List.ne_nil_of_mem (config.mem_lookup_groups.mpr (inv.known_groups first firstMember))
  refine ⟨inv.valid, ?_, ?_, ?_⟩
  · intro group member
    rcases inv.restart with none | full | windows
    · rw [none] at member
      cases member
    · exact config.mem_lookup_groups.mp (full ▸ member)
    · exact (config.mem_sliding_window_groups.mp (windows ▸ member)).1
  · intro again
    by_cases isFull : state.lookupGroups = config.lookupGroups
    · refine ⟨[], start_inv inv.valid, fun group member => .inr ?_⟩
      rw [isFull]
      exact config.mem_lookup_groups.mpr member
    · have windows : state.lookupGroups = config.slidingWindowGroups :=
        (inv.restart.resolve_left again).resolve_left isFull
      refine ⟨config.fullAttentionGroups, ⟨inv.valid, ?_, by simp +contextual
        [config.mem_full_attention_groups], ?_, .inr (inv.synced.resolve_left nonempty), ?_,
        .inl rfl⟩, ?_⟩
      · intro settled _ group member full
        exact inv.full settled isFull group
          (all group (config.mem_full_attention_groups.mp member).1) full
      · exact fun _ group member => (config.mem_full_attention_groups.mp member).2
      · exact fun group member => (config.mem_full_attention_groups.mp member).1
      · intro group member
        rw [windows, config.mem_full_attention_groups, config.mem_sliding_window_groups]
        cases group.slidingWindowSizeInChunks <;> simp [member]
  · intro none settled _
    refine ⟨(inv.synced.resolve_left nonempty).2, fun group member => ?_⟩
    cases window : group.slidingWindowSizeInChunks with
    | none =>
        exact ⟨inv.full settled (none ▸ someGroup.symm) group (all group member) window, by simp⟩
    | some size =>
        obtain ⟨covered, enough⟩ :=
          inv.windows settled none group (all group member) (by simp [window])
        exact ⟨covered, fun _ => enough⟩

theorem converge_covers (facts : LookupFacts Valid Known)
    {state after : Convergence numComputedTokens} {manager last : M} (valid : Valid manager)
    (fresh : state.numHitTokens = 0)
    (converged : converge config mirrorLocal status state manager config.lookupGroups =
      .ok (some after, last)) :
    SearchInv Valid Known config status [] after last := by
  refine (@converge_rule M _ config mirrorLocal status numComputedTokens
    (SearchInv Valid Known config status) True ?_ (fun _ _ _ _ _ _ _ => trivial)
    config.lookupGroups state manager _ _ ?_ converged).2 after rfl
  · intro group rest state manager after last inv passed
    obtain ⟨visited, passInv, all⟩ := inv.visited (List.cons_ne_nil _ _)
    have after_inv := pass_keeps_inv facts (group :: rest) inv.members passInv passed
    exact search_inv_of_pass after_inv (by simp) fun other member =>
      List.mem_append.mpr (all other member)
  · refine ⟨valid, fun group member => config.mem_lookup_groups.mp member, fun _ => ?_, ?_⟩
    · exact ⟨[], start_inv valid, fun group member =>
        .inr (config.mem_lookup_groups.mpr member)⟩
    · intro _ _ hits
      omega

/-- A returned hit covers its boundary in every group. -/
theorem lookup_complete_chunks_covers (facts : LookupFacts Valid Known)
    {mambaAlignSize : Option Nat} {chunksBeingLoaded : Option (Finset OffloadKey)}
    {manager last : M} {numHitTokens : Nat} (valid : Valid manager) (positive : 0 < numHitTokens)
    (looked : lookupCompleteChunks config mirrorLocal status mambaAlignSize chunksBeingLoaded
      manager = .ok (some numHitTokens, last)) :
    Valid last ∧ ∀ group ∈ config.kvGroupConfigs,
      Covered (Known last) status group status.numLocallyComputedTokens
        (status.numLocallyComputedTokens + numHitTokens) := by
  obtain ⟨⟨result, middle⟩, converged, looked⟩ := bind_eq_ok.mp looked
  cases result with
  | none =>
      cases looked
      exact absurd positive (lt_irrefl 0)
  | some after =>
      have inv := converge_covers facts valid rfl converged
      simp only at looked
      split at looked
      · cases looked
      · rename_i settled
        split at looked
        · cases looked
        · cases looked
          obtain ⟨hit_eq, covered⟩ := inv.done rfl (by simpa using settled) positive
          refine ⟨inv.valid, fun group member => ?_⟩
          rw [hit_eq, Nat.add_sub_cancel' (by omega)]
          exact (covered group member).1

end Passes

end KvOffload.LookupCoverage
