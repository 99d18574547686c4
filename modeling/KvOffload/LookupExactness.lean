import KvOffload.LookupCoverage
import Mathlib.Order.Bounds.Basic

/-!
# What a lookup finds when the answers are fixed

Against answers that never change and are only hits and misses, a group without
EAGLE moves the boundary to the greatest one it covers, and the passes end at the
greatest boundary that every group covers and that leaves a chunk to load in each
window group. A full-attention group is only checked for a chunk of its own when it
is looked up, so a window group behind it may end below that.
-/

namespace KvOffload.LookupExactness

open KvOffload KvOffload.Base KvOffload.ConnectorConfig KvOffload.ConnectorRequests
open KvOffload.ManagerInterface KvOffload.ConnectorLookup KvOffload.LookupCoverage

set_option autoImplicit false

/-- The keys that are hits; every other key is a miss. -/
structure FixedLookup where
  hits : OffloadKey → Bool

instance : OffloadingLookup FixedLookup where
  lookup manager key _ := .ok (if manager.hits key then .hit else .miss, manager)
  touch manager _ := manager

/-- The keys below `stop` are hits, as far as the window reaches back. -/
def HitRun (manager : FixedLookup) (window : Option Nat) (keys : List OffloadKey)
    (stop : Nat) : Prop :=
  stop ≤ keys.length ∧ ∀ index < stop, (∀ size, window = some size → stop ≤ index + size) →
    ∀ key, keys[index]? = some key → manager.hits key = true

section Scans

variable {reqContext : ReqContext} {manager : FixedLookup}

/-- The number of hits before the first miss. -/
theorem prefix_lookup_exact (mirrorLocal : Bool) (keys : List OffloadKey) (hitCount : Nat) :
    ∃ count, maximalPrefixLookup mirrorLocal reqContext manager hitCount false keys =
        .ok (some (hitCount + count), manager) ∧
      IsGreatest {stop | HitRun manager none keys stop} count := by
  induction keys generalizing hitCount with
  | nil => exact ⟨0, rfl, ⟨le_rfl, by simp⟩, fun stop member => member.1⟩
  | cons key rest ih =>
      cases isHit : manager.hits key with
      | false =>
          refine ⟨0, by simp [maximalPrefixLookup, OffloadingLookup.lookup, isHit],
            ⟨Nat.zero_le _, by simp⟩, ?_⟩
          intro stop member
          by_contra positive
          have hit := member.2 0 (by omega) (by simp) key rfl
          rw [isHit] at hit
          cases hit
      | true =>
          obtain ⟨count, looked, inside, greatest⟩ := ih (hitCount + 1)
          refine ⟨count + 1, ?_, ?_, ?_⟩
          · have next : (if mirrorLocal = true then
                OffloadingLookup.touch manager [key] else manager) = manager := ite_self _
            simp only [maximalPrefixLookup, OffloadingLookup.lookup, isHit, if_true, ok_bind]
            rw [next, looked, Nat.add_assoc, Nat.add_comm 1]
          · refine ⟨Nat.succ_le_succ inside.1, fun index below _ other found => ?_⟩
            cases index with
            | zero => exact Option.some.inj found ▸ isHit
            | succ index => exact inside.2 index (by omega) (by simp) other (by simpa using found)
          · intro stop member
            cases stop with
            | zero => exact Nat.zero_le _
            | succ stop =>
                refine Nat.succ_le_succ (greatest ⟨Nat.le_of_succ_le_succ member.1, ?_⟩)
                intro index below _ other found
                exact member.2 (index + 1) (by omega) (by simp) other (by simpa using found)

/-- The scan has `above` behind it, which starts with `consecutiveHits` hits; no run
ends after those. -/
theorem window_scan_exact {window : Nat} (keys above : List OffloadKey) {consecutiveHits : Nat}
    (short : consecutiveHits < window) (inside : consecutiveHits ≤ above.length)
    (run : ∀ index < consecutiveHits, ∀ key, above[index]? = some key → manager.hits key = true)
    (none_after : ∀ stop, HitRun manager (some window) (keys.reverse ++ above) stop →
      stop ≤ keys.length + consecutiveHits) :
    ∃ count, slidingWindowScan window reqContext manager consecutiveHits false keys =
        .ok (some count, manager) ∧
      IsGreatest {stop | HitRun manager (some window) (keys.reverse ++ above) stop} count := by
  induction keys generalizing above consecutiveHits with
  | nil =>
      refine ⟨consecutiveHits, rfl, ⟨inside, fun index below _ => run index below⟩, ?_⟩
      intro stop member
      simpa using none_after stop member
  | cons key rest ih =>
      have split_eq : (key :: rest).reverse ++ above = rest.reverse ++ key :: above := by simp
      rw [split_eq] at none_after ⊢
      have key_at : (rest.reverse ++ key :: above)[rest.length]? = some key := by
        rw [List.getElem?_append_right (by simp)]
        simp
      cases isHit : manager.hits key with
      | false =>
          have next := ih (key :: above) (Nat.zero_lt_of_lt short) (Nat.zero_le _) (by simp)
          rw [show slidingWindowScan window reqContext manager consecutiveHits false (key :: rest) =
              slidingWindowScan window reqContext manager 0 false rest by
            simp [slidingWindowScan, OffloadingLookup.lookup, isHit,
              (Nat.zero_lt_of_lt short).ne]]
          apply next
          intro stop member
          by_contra beyond
          have high := none_after stop member
          rw [List.length_cons] at high
          have hit := member.2 rest.length (by omega)
            (fun size same => by cases same; omega) key key_at
          rw [isHit] at hit
          cases hit
      | true =>
          have run' : ∀ index < consecutiveHits + 1, ∀ other,
              (key :: above)[index]? = some other → manager.hits other = true := by
            intro index below other found
            cases index with
            | zero => exact Option.some.inj found ▸ isHit
            | succ index => exact run index (by omega) other (by simpa using found)
          by_cases full : consecutiveHits + 1 = window
          · refine ⟨rest.length + window, by
              simp [slidingWindowScan, OffloadingLookup.lookup, isHit, full], ⟨?_, ?_⟩, ?_⟩
            · simp only [List.length_append, List.length_reverse, List.length_cons]
              omega
            · intro index below low other found
              have high : rest.length ≤ index := by
                have := low window rfl
                omega
              rw [List.getElem?_append_right (by simpa using high), List.length_reverse] at found
              exact run' (index - rest.length) (by omega) other found
            · intro stop member
              have high := none_after stop member
              rw [List.length_cons] at high
              omega
          · rw [show slidingWindowScan window reqContext manager consecutiveHits false
                  (key :: rest) =
                slidingWindowScan window reqContext manager (consecutiveHits + 1) false rest by
              simp [slidingWindowScan, OffloadingLookup.lookup, isHit, full]]
            apply ih (key :: above) (by omega) (Nat.succ_le_succ inside) run'
            intro stop member
            have high := none_after stop member
            rw [List.length_cons] at high
            omega

theorem window_lookup_exact {window : Nat} (positive : 0 < window) (keys : List OffloadKey) :
    ∃ count, slidingWindowLookup keys window reqContext manager = .ok (some count, manager) ∧
      IsGreatest {stop | HitRun manager (some window) keys stop} count := by
  have scanned := @window_scan_exact reqContext manager window keys.reverse [] 0 positive le_rfl
    (by simp)
  simp only [List.reverse_reverse, List.append_nil, List.length_reverse] at scanned
  exact scanned fun stop member => member.1

end Scans

section Groups

variable {manager : FixedLookup} {config : SchedulerOffloadConfig} {mirrorLocal : Bool}
  {status : RequestOffloadState} {numComputedTokens : Nat}

/-- The boundaries a group covers with hits. -/
def Hit (manager : FixedLookup) (status : RequestOffloadState) (group : GroupOffloadConfig)
    (numComputedTokens boundary : Nat) : Prop :=
  Covered (fun key => manager.hits key = true) status group numComputedTokens boundary

theorem fixed_lookup_facts :
    LookupFacts (fun _ : FixedLookup => True) fun manager key => manager.hits key = true where
  hit := by
    intro manager after key reqContext _ looked
    cases isHit : manager.hits key with
    | true =>
        simp only [OffloadingLookup.lookup, isHit, if_true] at looked
        cases looked
        exact isHit
    | false => simp [OffloadingLookup.lookup, isHit] at looked
  kept := by
    intro manager after key other reqContext result _ looked _ known
    cases (Except.ok.inj looked).symm
    exact known
  valid := fun _ _ => trivial
  touch_kept := fun _ known => known
  touch_valid := fun _ => trivial

theorem query_exact {group : GroupOffloadConfig}
    (window_pos : ∀ window, group.slidingWindowSizeInChunks = some window → 0 < window)
    (keys : List OffloadKey) :
    ∃ count, queryGroup mirrorLocal status group keys false manager = .ok (some count, manager) ∧
      IsGreatest {stop | HitRun manager group.slidingWindowSizeInChunks keys stop} count := by
  unfold queryGroup
  cases isWindow : group.slidingWindowSizeInChunks with
  | none => simpa using prefix_lookup_exact mirrorLocal keys 0
  | some window => exact window_lookup_exact (window_pos window isWindow) keys

/-- A covered boundary is the end of a run among the keys that are looked up. -/
theorem run_of_hit {group : GroupOffloadConfig} (positive : 0 < group.tokensPerChunk)
    {capped boundary : Nat}
    (hit : Hit manager status group numComputedTokens boundary) (below : boundary ≤ capped) :
    HitRun manager group.slidingWindowSizeInChunks
      (queriedKeys (status.groupStates group.groupIdx).offloadKeys group numComputedTokens capped
        false)
      (cdiv boundary group.tokensPerChunk - numComputedTokens / group.tokensPerChunk) := by
  have enough : cdiv boundary group.tokensPerChunk ≤
      (status.groupStates group.groupIdx).offloadKeys.length :=
    (cdiv_le_iff positive).mpr (by rw [Nat.mul_comm]; exact hit.inside)
  have inCap := cdiv_mono group.tokensPerChunk below
  simp only [queriedKeys, Bool.false_and, Bool.false_eq_true, if_false]
  constructor
  · rw [List.length_drop, List.length_take]
    omega
  · intro index inside low key found
    rw [slice_get _ _ _ _ (by omega)] at found
    refine hit.known _ ⟨Nat.le_add_right _ _, by omega, ?_⟩ key found
    intro window isWindow
    have := low window isWindow
    omega

/-- Nothing is deferred, and only window groups are to be looked up again. -/
structure Settled (config : SchedulerOffloadConfig) (state : Convergence numComputedTokens) :
    Prop where
  notDeferred : state.deferLookup = false
  again : state.lookupGroups = [] ∨ state.lookupGroups = config.slidingWindowGroups

/-- Without EAGLE a group fails only when no covered boundary leaves it a chunk, and
otherwise moves the boundary to the greatest one it covers. -/
theorem group_exact {state : Convergence numComputedTokens} {group : GroupOffloadConfig}
    (member : group ∈ config.kvGroupConfigs) (plain : group.isEagleGroup = false)
    (keyed : status.req.numTokens / group.tokensPerChunk ≤
      (status.groupStates group.groupIdx).offloadKeys.length)
    (settled : Settled config state) :
    ∃ result, lookupGroup config mirrorLocal status state manager group =
        .ok (result, manager) ∧
      (result = none → ∀ boundary ≤ state.maxHitSizeTokens,
        Hit manager status group numComputedTokens boundary →
          boundary - numComputedTokens < group.tokensPerChunk) ∧
      ∀ after, result = some after → Settled config after ∧
        group.tokensPerChunk ≤ after.numHitTokens ∧
        after.numHitTokens = after.maxHitSizeTokens - numComputedTokens ∧
        IsGreatest {boundary | boundary ≤ state.maxHitSizeTokens ∧
          Hit manager status group numComputedTokens boundary} after.maxHitSizeTokens := by
  have positive := chunk_pos member
  have window_pos := (config.well_formed group member).window_pos
  have unmarked : state.eagleUnverified group = false := by simp [Convergence.eagleUnverified, plain]
  obtain ⟨result, looked⟩ : ∃ result, lookupGroup config mirrorLocal status state manager group =
      .ok (result, manager) := by
    simp only [lookupGroup, py_assert_of keyed, ok_bind, unmarked]
    split
    · exact ⟨_, rfl⟩
    · obtain ⟨count, queried, _⟩ := @query_exact manager mirrorLocal status group window_pos _
      rw [queried]
      exact ⟨_, rfl⟩
  refine ⟨result, looked, ?_⟩
  have inCap : ∀ boundary ≤ state.maxHitSizeTokens,
      Hit manager status group numComputedTokens boundary →
        boundary ≤ cappedBoundary status state group := fun boundary below hit =>
    le_min below hit.inside
  obtain ⟨_, ⟨short, rfl, _⟩ | ⟨_, numHitChunks, queried, rfl⟩⟩ := lookup_group_ok looked
  · refine ⟨fun _ boundary below hit => ?_, nofun⟩
    have := inCap boundary below hit
    omega
  · rw [groupKeys, unmarked] at queried
    obtain ⟨count, counted, inside, greatest⟩ :=
      @query_exact manager mirrorLocal status group window_pos
        (queriedKeys (status.groupStates group.groupIdx).offloadKeys group numComputedTokens
          (cappedBoundary status state group) false)
    cases counted.symm.trans queried
    -- every covered boundary ends with the run that was found, or before it
    have chunks_le : ∀ boundary ≤ state.maxHitSizeTokens,
        Hit manager status group numComputedTokens boundary →
          cdiv boundary group.tokensPerChunk ≤
            numComputedTokens / group.tokensPerChunk + count := by
      intro boundary below hit
      have := greatest (run_of_hit positive hit (inCap boundary below hit))
      omega
    cases count with
    | zero =>
        refine ⟨fun _ boundary below hit => ?_, nofun⟩
        have tokens_le := (cdiv_le_iff positive).mp (chunks_le boundary below hit)
        have start_le := Nat.mul_div_le numComputedTokens group.tokensPerChunk
        rw [Nat.add_zero] at tokens_le
        omega
    | succ count =>
        have tokens_le : ∀ boundary ≤ state.maxHitSizeTokens,
            Hit manager status group numComputedTokens boundary →
              boundary ≤ min (cappedBoundary status state group)
                (group.tokensPerChunk *
                  (numComputedTokens / group.tokensPerChunk + (count + 1))) :=
          fun boundary below hit => le_min (inCap boundary below hit)
            ((cdiv_le_iff positive).mp (chunks_le boundary below hit))
        obtain ⟨_, covers⟩ := query_covers fixed_lookup_facts positive window_pos trivial
          (min_le_right _ _) queried
        obtain ⟨_, covered⟩ := covers count rfl
        simp only [Convergence.tighten, unmarked, Bool.false_eq_true, if_false]
        constructor
        · intro failed boundary below hit
          have := tokens_le boundary below hit
          unfold Convergence.conclude at failed
          simp only at failed
          split at failed
          · omega
          · cases failed
        · intro after concluded
          obtain ⟨enough, maxHit, numHit, _, flags⟩ := conclude_flags concluded
          refine ⟨?_, numHit ▸ enough, by rw [numHit, maxHit], ?_⟩
          · rw [settled.notDeferred] at flags
            simp only [Bool.false_eq_true, if_false] at flags
            split at flags
            · refine ⟨flags.1, ?_⟩
              rw [flags.2]
              split
              · exact .inr rfl
              · exact settled.again
            · exact ⟨flags.1, flags.2 ▸ settled.again⟩
          · rw [maxHit]
            exact ⟨⟨(min_le_left _ _).trans (min_le_left _ _), covered⟩,
              fun boundary hit => tokens_le boundary hit.1 hit.2⟩

end Groups

section Passes

variable {manager : FixedLookup} {config : SchedulerOffloadConfig} {mirrorLocal : Bool}
  {status : RequestOffloadState} {numComputedTokens : Nat}

/-- Each group of a request has the keys of its complete chunks, as the lookup asserts. -/
def Keyed (config : SchedulerOffloadConfig) (status : RequestOffloadState) : Prop :=
  ∀ group ∈ config.kvGroupConfigs, status.req.numTokens / group.tokensPerChunk ≤
    (status.groupStates group.groupIdx).offloadKeys.length

/-- A pass lowers the boundary no further than its groups ask for. -/
theorem pass_exact (plain : ∀ group ∈ config.kvGroupConfigs, group.isEagleGroup = false)
    (keyed : Keyed config status) (groups : List GroupOffloadConfig)
    (members : ∀ group ∈ groups, group ∈ config.kvGroupConfigs)
    {state : Convergence numComputedTokens} (settled : Settled config state) :
    ∃ result, lookupPass config mirrorLocal status state manager groups =
        .ok (result, manager) ∧
      (result = none → ∀ boundary ≤ state.maxHitSizeTokens,
        (∀ group ∈ groups, Hit manager status group numComputedTokens boundary) →
          ∃ group ∈ groups, boundary - numComputedTokens < group.tokensPerChunk) ∧
      ∀ after, result = some after → Settled config after ∧
        (groups ≠ [] ∨ 0 < state.numHitTokens → 0 < after.numHitTokens) ∧
        after.maxHitSizeTokens ≤ state.maxHitSizeTokens ∧
        ∀ boundary ≤ state.maxHitSizeTokens,
          (∀ group ∈ groups, Hit manager status group numComputedTokens boundary) →
            boundary ≤ after.maxHitSizeTokens := by
  induction groups generalizing state with
  | nil =>
      refine ⟨some state, rfl, fun isNone => (by cases isNone), ?_⟩
      rintro after same
      cases same
      exact ⟨settled, fun positive => positive.resolve_left (by simp), le_rfl,
        fun _ below _ => below⟩
  | cons group rest ih =>
      have member := members group List.mem_cons_self
      obtain ⟨result, looked, failed, moved⟩ :=
        @group_exact manager config mirrorLocal status numComputedTokens state group member
          (plain group member) (keyed group member) settled
      unfold lookupPass
      rw [looked, ok_bind]
      cases result with
      | none =>
          refine ⟨none, rfl, fun _ boundary below hit => ?_, fun after isSome => (by cases isSome)⟩
          exact ⟨group, List.mem_cons_self,
            failed rfl boundary below (hit group List.mem_cons_self)⟩
      | some middle =>
          obtain ⟨middleSettled, enough, synced, ⟨lower, _⟩, greatest⟩ := moved middle rfl
          obtain ⟨result, passed, later, moved⟩ :=
            ih (fun other member => members other (List.mem_cons_of_mem _ member)) middleSettled
          refine ⟨result, passed, ?_, ?_⟩
          · intro isNone boundary below hit
            obtain ⟨other, otherMember, short⟩ :=
              later isNone boundary (greatest ⟨below, hit group List.mem_cons_self⟩)
                fun other member => hit other (List.mem_cons_of_mem _ member)
            exact ⟨other, List.mem_cons_of_mem _ otherMember, short⟩
          · intro after isSome
            obtain ⟨afterSettled, positive, afterLower, keeps⟩ := moved after isSome
            refine ⟨afterSettled, fun _ => ?_, afterLower.trans lower, ?_⟩
            · exact positive (.inr ((chunk_pos member).trans_le enough))
            · intro boundary below hit
              exact keeps boundary (greatest ⟨below, hit group List.mem_cons_self⟩)
                fun other member => hit other (List.mem_cons_of_mem _ member)

/-- At its turn each group has a boundary that it and the groups before it cover and
that leaves it a chunk to load. -/
def TurnsLoad (manager : FixedLookup) (status : RequestOffloadState)
    (numComputedTokens top : Nat) (visited : List GroupOffloadConfig) :
    List GroupOffloadConfig → Prop
  | [] => True
  | group :: rest =>
      (∃ boundary ≤ top,
        (∀ other ∈ visited ++ [group], Hit manager status other numComputedTokens boundary) ∧
          group.tokensPerChunk ≤ boundary - numComputedTokens) ∧
        TurnsLoad manager status numComputedTokens top (visited ++ [group]) rest

/-- A pass over full-attention groups fails only when the turn of one does. -/
theorem full_pass_exact (plain : ∀ group ∈ config.kvGroupConfigs, group.isEagleGroup = false)
    (keyed : Keyed config status) {top : Nat} (groups : List GroupOffloadConfig)
    (members : ∀ group ∈ groups, group ∈ config.fullAttentionGroups)
    {visited : List GroupOffloadConfig}
    (visitedFull : ∀ group ∈ visited, group.slidingWindowSizeInChunks = none)
    {state : Convergence numComputedTokens} (settled : Settled config state)
    (greatest : IsGreatest {boundary | boundary ≤ top ∧
      ∀ group ∈ visited, Hit manager status group numComputedTokens boundary}
      state.maxHitSizeTokens)
    {result : Option (Convergence numComputedTokens)} {last : FixedLookup}
    (passed : lookupPass config mirrorLocal status state manager groups = .ok (result, last)) :
    TurnsLoad manager status numComputedTokens top visited groups ↔ result.isSome = true := by
  induction groups generalizing state visited with
  | nil =>
      cases passed
      simp [TurnsLoad]
  | cons group rest ih =>
      obtain ⟨member, full⟩ := config.mem_full_attention_groups.mp (members group List.mem_cons_self)
      obtain ⟨answer, looked, failed, moved⟩ :=
        @group_exact manager config mirrorLocal status numComputedTokens state group member
          (plain group member) (keyed group member) settled
      unfold lookupPass at passed
      rw [looked, ok_bind] at passed
      cases answer with
      | none =>
          cases passed
          simp only [TurnsLoad, Option.isSome_none, Bool.false_eq_true, iff_false]
          rintro ⟨⟨boundary, below, hit, enough⟩, _⟩
          have inMax := greatest.2 ⟨below, fun other otherMember =>
            hit other (List.mem_append_left _ otherMember)⟩
          have := failed rfl boundary inMax (hit group (by simp))
          omega
      | some middle =>
          obtain ⟨middleSettled, enough, synced, ⟨lower, middleHit⟩, middleGreatest⟩ :=
            moved middle rfl
          have visitedHit : ∀ other ∈ visited ++ [group],
              Hit manager status other numComputedTokens middle.maxHitSizeTokens := by
            intro other otherMember
            rcases List.mem_append.mp otherMember with before | this
            · exact covered_lower (visitedFull other before) lower (greatest.1.2 other before)
            · rw [List.mem_singleton.mp this]
              exact middleHit
          have inTop : middle.maxHitSizeTokens ≤ top := lower.trans greatest.1.1
          have nextFull : ∀ other ∈ visited ++ [group],
              other.slidingWindowSizeInChunks = none := by
            intro other otherMember
            rcases List.mem_append.mp otherMember with before | this
            · exact visitedFull other before
            · rw [List.mem_singleton.mp this]
              exact full
          have nextGreatest : IsGreatest {boundary | boundary ≤ top ∧ ∀ other ∈ visited ++ [group],
              Hit manager status other numComputedTokens boundary} middle.maxHitSizeTokens := by
            refine ⟨⟨inTop, visitedHit⟩, fun boundary hit => middleGreatest ⟨?_, ?_⟩⟩
            · exact greatest.2 ⟨hit.1, fun other otherMember =>
                hit.2 other (List.mem_append_left _ otherMember)⟩
            · exact hit.2 group (by simp)
          have rest_iff := ih
            (fun other otherMember => members other (List.mem_cons_of_mem _ otherMember))
            nextFull middleSettled nextGreatest passed
          rw [← rest_iff, TurnsLoad, and_iff_right]
          exact ⟨middle.maxHitSizeTokens, inTop, visitedHit, synced ▸ enough⟩

end Passes

section Search

variable {manager : FixedLookup} {config : SchedulerOffloadConfig} {mirrorLocal : Bool}
  {status : RequestOffloadState} {numComputedTokens : Nat}

/-- A boundary up to `top` that every group covers, and that leaves a chunk to load
in each of the `loading` groups. -/
structure Admissible (manager : FixedLookup) (config : SchedulerOffloadConfig)
    (status : RequestOffloadState) (numComputedTokens top : Nat)
    (loading : List GroupOffloadConfig) (boundary : Nat) : Prop where
  le_top : boundary ≤ top
  hit : ∀ group ∈ config.kvGroupConfigs, Hit manager status group numComputedTokens boundary
  enough : ∀ group ∈ loading, group.tokensPerChunk ≤ boundary - numComputedTokens

/-- The passes over window groups end, and lose no admissible boundary. -/
theorem converge_windows (plain : ∀ group ∈ config.kvGroupConfigs, group.isEagleGroup = false)
    (keyed : Keyed config status) {top : Nat} (groups : List GroupOffloadConfig)
    (windows : ∀ group ∈ groups, group ∈ config.slidingWindowGroups)
    (state : Convergence numComputedTokens) (settled : Settled config state)
    (positive : 0 < state.numHitTokens)
    (bounded : ∀ boundary, Admissible manager config status numComputedTokens top
      config.slidingWindowGroups boundary → boundary ≤ state.maxHitSizeTokens) :
    ∃ result, converge config mirrorLocal status state manager groups = .ok (result, manager) ∧
      (result = none → ∀ boundary, ¬Admissible manager config status numComputedTokens top
        config.slidingWindowGroups boundary) ∧
      ∀ after, result = some after → Settled config after ∧ 0 < after.numHitTokens ∧
        after.maxHitSizeTokens ≤ state.maxHitSizeTokens ∧
        ∀ boundary, Admissible manager config status numComputedTokens top
          config.slidingWindowGroups boundary → boundary ≤ after.maxHitSizeTokens := by
  -- a pass that asks for another one has lowered the boundary
  induction measure : state.maxHitSizeTokens using Nat.strong_induction_on
    generalizing state groups with
  | _ maxHitSizeTokens ih =>
  cases groups with
  | nil =>
      refine ⟨some state, by rw [converge], fun isNone => (by cases isNone), ?_⟩
      rintro after same
      cases same
      exact ⟨settled, positive, measure.le, measure ▸ bounded⟩
  | cons group rest =>
      have members : ∀ other ∈ group :: rest, other ∈ config.kvGroupConfigs := fun other member =>
        (config.mem_sliding_window_groups.mp (windows other member)).1
      obtain ⟨result, passed, failed, moved⟩ := @pass_exact manager config mirrorLocal status
        numComputedTokens plain keyed (group :: rest) members state.startPass
        ⟨settled.notDeferred, .inl rfl⟩
      rw [converge_cons, passed, ok_bind]
      cases result with
      | none =>
          refine ⟨none, rfl, fun _ boundary admissible => ?_, fun after isSome => (by cases isSome)⟩
          obtain ⟨other, member, short⟩ := failed rfl boundary (bounded boundary admissible)
            fun other member => admissible.hit other (members other member)
          have := admissible.enough other (windows other member)
          omega
      | some middle =>
          obtain ⟨middleSettled, middlePositive, lower, keeps⟩ := moved middle rfl
          have middleBounded : ∀ boundary, Admissible manager config status numComputedTokens top
              config.slidingWindowGroups boundary → boundary ≤ middle.maxHitSizeTokens :=
            fun boundary admissible => keeps boundary (bounded boundary admissible)
              fun other member => admissible.hit other (members other member)
          rcases (lookup_pass_lowers _ passed).2 with none | smaller
          · refine ⟨some middle, ?_, fun isNone => (by cases isNone), ?_⟩
            · simp only [none, Convergence.startPass]
              rw [converge]
            · rintro after same
              cases same
              exact ⟨middleSettled, middlePositive (.inr positive), measure ▸ lower,
                middleBounded⟩
          · have nextWindows : ∀ other ∈ middle.lookupGroups,
                other ∈ config.slidingWindowGroups := by
              intro other member
              rcases middleSettled.again with none | again
              · rw [none] at member
                cases member
              · exact again ▸ member
            obtain ⟨result, converged, stopped, moved⟩ :=
              ih middle.maxHitSizeTokens (measure ▸ smaller) middle.lookupGroups nextWindows middle
                middleSettled (middlePositive (.inr positive)) middleBounded rfl
            refine ⟨result, converged, stopped, fun after isSome => ?_⟩
            obtain ⟨afterSettled, afterPositive, afterLower, afterBounded⟩ := moved after isSome
            exact ⟨afterSettled, afterPositive, afterLower.trans (measure ▸ lower), afterBounded⟩

/-- The search fails only without an admissible boundary, or when the turn of a
full-attention group leaves it nothing to load. -/
theorem converge_search (plain : ∀ group ∈ config.kvGroupConfigs, group.isEagleGroup = false)
    (keyed : Keyed config status) (nonempty : config.kvGroupConfigs ≠ [])
    {start : Convergence numComputedTokens} (settled : Settled config start) :
    ∃ result, converge config mirrorLocal status start manager config.lookupGroups =
        .ok (result, manager) ∧
      (result = none → ¬(TurnsLoad manager status numComputedTokens start.maxHitSizeTokens []
          config.fullAttentionGroups ∧
        ∃ boundary, Admissible manager config status numComputedTokens start.maxHitSizeTokens
          config.slidingWindowGroups boundary)) ∧
      ∀ after, result = some after →
        TurnsLoad manager status numComputedTokens start.maxHitSizeTokens []
          config.fullAttentionGroups ∧
        Settled config after ∧ 0 < after.numHitTokens ∧
        after.maxHitSizeTokens ≤ start.maxHitSizeTokens ∧
        ∀ boundary, Admissible manager config status numComputedTokens start.maxHitSizeTokens
          config.slidingWindowGroups boundary → boundary ≤ after.maxHitSizeTokens := by
  have fullMembers : ∀ group ∈ config.fullAttentionGroups, group ∈ config.kvGroupConfigs :=
    fun group member => (config.mem_full_attention_groups.mp member).1
  have windowMembers : ∀ group ∈ config.slidingWindowGroups, group ∈ config.kvGroupConfigs :=
    fun group member => (config.mem_sliding_window_groups.mp member).1
  have startSettled : Settled config start.startPass := ⟨settled.notDeferred, .inl rfl⟩
  -- the first pass asks the full-attention groups, then the window groups
  obtain ⟨fullResult, fullPassed, _, fullMoved⟩ := @pass_exact manager config mirrorLocal status
    numComputedTokens plain keyed config.fullAttentionGroups fullMembers start.startPass
    startSettled
  have turns_iff : TurnsLoad manager status numComputedTokens start.maxHitSizeTokens []
      config.fullAttentionGroups ↔ fullResult.isSome = true :=
    full_pass_exact plain keyed _ (fun _ => id) (by simp) startSettled
      ⟨⟨le_rfl, by simp⟩, fun _ hit => hit.1⟩ fullPassed
  obtain ⟨group, member⟩ := List.exists_mem_of_ne_nil _ nonempty
  obtain ⟨first, rest, groups_eq⟩ := List.exists_cons_of_ne_nil
    (List.ne_nil_of_mem (config.mem_lookup_groups.mpr member))
  rw [groups_eq, converge_cons, ← groups_eq, SchedulerOffloadConfig.lookupGroups,
    lookup_pass_append, fullPassed, ok_bind, turns_iff]
  cases fullResult with
  | none => exact ⟨none, rfl, by simp, fun after isSome => (by cases isSome)⟩
  | some full =>
      obtain ⟨fullSettled, fullPositive, fullLower, fullKeeps⟩ := fullMoved full rfl
      obtain ⟨windowResult, windowPassed, windowFailed, windowMoved⟩ := @pass_exact manager config
        mirrorLocal status numComputedTokens plain keyed config.slidingWindowGroups windowMembers
        full fullSettled
      have inFull : ∀ boundary, Admissible manager config status numComputedTokens
          start.maxHitSizeTokens config.slidingWindowGroups boundary →
          boundary ≤ full.maxHitSizeTokens := fun boundary admissible =>
        fullKeeps boundary admissible.le_top fun group member =>
          admissible.hit group (fullMembers group member)
      have inWindows : ∀ boundary, Admissible manager config status numComputedTokens
          start.maxHitSizeTokens config.slidingWindowGroups boundary →
          ∀ group ∈ config.slidingWindowGroups,
            Hit manager status group numComputedTokens boundary := fun boundary admissible group
        member => admissible.hit group (windowMembers group member)
      simp only [windowPassed, ok_bind, Option.isSome_some, true_and]
      cases windowResult with
      | none =>
          refine ⟨none, rfl, fun _ found => ?_, fun after isSome => (by cases isSome)⟩
          obtain ⟨boundary, admissible⟩ := found
          obtain ⟨group, member, short⟩ := windowFailed rfl boundary (inFull boundary admissible)
            (inWindows boundary admissible)
          have := admissible.enough group member
          omega
      | some middle =>
          obtain ⟨middleSettled, windowPositive, windowLower, windowKeeps⟩ := windowMoved middle rfl
          have positive : 0 < middle.numHitTokens := by
            apply windowPositive
            by_cases noWindows : config.slidingWindowGroups = []
            · refine .inr (fullPositive (.inl fun noFull => nonempty ?_))
              refine List.eq_nil_iff_forall_not_mem.mpr fun group member => ?_
              have looked := config.mem_lookup_groups.mpr member
              rw [SchedulerOffloadConfig.lookupGroups, noWindows, noFull] at looked
              cases looked
            · exact .inl noWindows
          have again : ∀ group ∈ middle.lookupGroups, group ∈ config.slidingWindowGroups := by
            intro group member
            rcases middleSettled.again with none | again
            · rw [none] at member
              cases member
            · exact again ▸ member
          obtain ⟨result, converged, failed, moved⟩ := @converge_windows manager config mirrorLocal
            status numComputedTokens plain keyed start.maxHitSizeTokens middle.lookupGroups again
            middle middleSettled positive fun boundary admissible =>
              windowKeeps boundary (inFull boundary admissible) (inWindows boundary admissible)
          refine ⟨result, converged, ?_, fun after isSome => ?_⟩
          · rintro isNone ⟨boundary, admissible⟩
            exact failed isNone boundary admissible
          · obtain ⟨afterSettled, afterPositive, afterLower, afterBounded⟩ := moved after isSome
            exact ⟨afterSettled, afterPositive, afterLower.trans (windowLower.trans fullLower),
              afterBounded⟩

/-- What a lookup may return: the admissible boundaries below the initial cap. -/
def findable (manager : FixedLookup) (config : SchedulerOffloadConfig)
    (status : RequestOffloadState) (mambaAlignSize : Option Nat) : Set Nat :=
  {boundary | Admissible manager config status status.numLocallyComputedTokens
    (initialBoundary config mambaAlignSize status.req.numTokens) config.slidingWindowGroups
    boundary}

/-- A returned hit is the greatest admissible boundary; zero means that there is none,
or that the turn of a full-attention group leaves it nothing to load. -/
theorem lookup_complete_chunks_exact
    (plain : ∀ group ∈ config.kvGroupConfigs, group.isEagleGroup = false)
    (keyed : Keyed config status) (nonempty : config.kvGroupConfigs ≠ [])
    (mambaAlignSize : Option Nat) (chunksBeingLoaded : Option (Finset OffloadKey)) :
    ∃ result, lookupCompleteChunks config mirrorLocal status mambaAlignSize chunksBeingLoaded
        manager = .ok (result, manager) ∧
      (result = some 0 ↔
        ¬(TurnsLoad manager status status.numLocallyComputedTokens
            (initialBoundary config mambaAlignSize status.req.numTokens) []
            config.fullAttentionGroups ∧
          (findable manager config status mambaAlignSize).Nonempty)) ∧
      (∀ numHitTokens, 0 < numHitTokens → result = some numHitTokens →
        IsGreatest (findable manager config status mambaAlignSize)
          (status.numLocallyComputedTokens + numHitTokens)) ∧
      (result = none → ∃ numHitTokens,
        IsGreatest (findable manager config status mambaAlignSize)
          (status.numLocallyComputedTokens + numHitTokens) ∧
        beingLoaded config status chunksBeingLoaded numHitTokens = true) := by
  obtain ⟨found, converged, failed, moved⟩ := @converge_search manager config mirrorLocal status
    status.numLocallyComputedTokens plain keyed nonempty
    { maxHitSizeTokens := initialBoundary config mambaAlignSize status.req.numTokens
      numHitTokens := 0
      deferLookup := false
      eagleVerified := []
      lookedUpSlidingWindow := false
      lookupGroups := []
      hit_le := Nat.zero_le _ } ⟨rfl, .inl rfl⟩
  simp only [lookupCompleteChunks, converged, ok_bind]
  cases found with
  | none =>
      refine ⟨some 0, rfl, ⟨fun _ => failed rfl, fun _ => rfl⟩, ?_, fun isNone => (by cases isNone)⟩
      exact fun _ positive zero => absurd (Option.some.inj zero) positive.ne
  | some after =>
      obtain ⟨turns, settled, positive, lower, bounded⟩ := moved after rfl
      obtain ⟨synced, covered⟩ := (converge_covers fixed_lookup_facts trivial rfl converged).done
        rfl settled.notDeferred positive
      have boundary_eq : after.maxHitSizeTokens =
          status.numLocallyComputedTokens + after.numHitTokens := by omega
      have admissible : after.maxHitSizeTokens ∈
          findable manager config status mambaAlignSize := by
        refine ⟨lower, fun group member => (covered group member).1, fun group member => ?_⟩
        obtain ⟨inConfig, window⟩ := config.mem_sliding_window_groups.mp member
        exact (covered group inConfig).2 window
      have greatest : IsGreatest (findable manager config status mambaAlignSize)
          (status.numLocallyComputedTokens + after.numHitTokens) :=
        boundary_eq ▸ ⟨admissible, bounded⟩
      simp only [settled.notDeferred, Bool.false_eq_true, if_false]
      split
      · rename_i loading
        refine ⟨none, rfl, ⟨fun isZero => (by cases isZero), fun missed => ?_⟩,
          fun numHitTokens _ isSome => (by cases isSome),
          fun _ => ⟨after.numHitTokens, greatest, loading⟩⟩
        exact absurd ⟨turns, _, admissible⟩ missed
      · refine ⟨some after.numHitTokens, rfl, ⟨fun zero => ?_, fun missed => ?_⟩, ?_,
          fun isNone => (by cases isNone)⟩
        · exact absurd (Option.some.inj zero) positive.ne'
        · exact absurd ⟨turns, _, admissible⟩ missed
        · intro numHitTokens _ same
          exact Option.some.inj same ▸ greatest

end Search

section MixedChunks

def mixedGroups : List OffloadingGroupConfig := [⟨8, 0⟩, ⟨2, 1⟩]

/-- A full-attention group with chunks of eight tokens, and a window group with
chunks and a window of two. -/
def mixedSpec : OffloadingSpec where
  groups := mixedGroups
  kvCacheGroups := [⟨.fullAttention, false⟩, ⟨.slidingWindow 2 Nat.two_pos, false⟩]
  blocksPerChunk := 1
  tokensPerHash := 2
  worldSize := 1
  decodeContextParallelSize := 1
  offloadPromptOnly := false
  useEagle := false
  ordered := by decide
  bounded := by decide
  blocks_pos := Nat.one_pos
  hash_pos := Nat.two_pos
  hash_fits := by decide

def mixedConfig : SchedulerOffloadConfig := .fromSpec mixedSpec

def mixedStatus : RequestOffloadState :=
  let req : Request := ⟨0, 9, 9, 0, [[0], [1], [2], [3]], .unfinished, false, .all, none⟩
  (RequestOffloadState.new req (createReqContext req) .blockLevel).updateOffloadKeys mixedConfig

/-- The full-attention chunk is there, and the second of the four window chunks. -/
def mixedLookup : FixedLookup where
  hits key := key ∈ [makeOffloadKey [3] 0, makeOffloadKey [1] 1]

theorem mixed_lookup_greatest : IsGreatest (findable mixedLookup mixedConfig mixedStatus none) 4 := by
  have keyed : Keyed mixedConfig mixedStatus := by
    change ∀ group ∈ mixedConfig.kvGroupConfigs, _
    decide
  have nonempty : mixedConfig.kvGroupConfigs ≠ [] := by decide
  obtain ⟨result, looked, _, greatest, _⟩ := @lookup_complete_chunks_exact mixedLookup mixedConfig
    false mixedStatus (by decide) keyed nonempty none none
  have returned : (lookupCompleteChunks mixedConfig false mixedStatus none none mixedLookup).map
      Prod.fst = .ok (some 4) := by decide +kernel
  rw [looked] at returned
  exact greatest 4 (by decide) (Except.ok.inj returned)

/-- Four tokens are returned although the full-attention group needs eight. -/
theorem short_chunk_returned :
    (lookupCompleteChunks mixedConfig false mixedStatus none none mixedLookup).map Prod.fst =
        .ok (some 4) ∧
      ∀ boundary, ¬Admissible mixedLookup mixedConfig mixedStatus 0
        (initialBoundary mixedConfig none mixedStatus.req.numTokens) mixedConfig.kvGroupConfigs
        boundary := by
  refine ⟨by decide +kernel, fun boundary admissible => ?_⟩
  have top : initialBoundary mixedConfig none mixedStatus.req.numTokens = 8 := by decide
  have lower : 8 ≤ boundary :=
    admissible.enough (mixedSpec.groupConfig ⟨8, 0⟩) (by decide)
  obtain rfl : boundary = 8 := le_antisymm (top ▸ admissible.le_top) lower
  have missed := (admissible.hit (mixedSpec.groupConfig ⟨2, 1⟩) (by decide)).known 3
    ⟨by decide, by decide, fun window same => by cases same; decide⟩ (makeOffloadKey [3] 1)
    (by decide)
  revert missed
  decide

end MixedChunks

end KvOffload.LookupExactness
