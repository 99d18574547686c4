import KvOffload.EngineScheduling
import KvOffload.FiniteTotals

/-!
# Budgets of a step

What the two budgets of `schedule` and the tokens that were given add up to. A request gets at
most what is left of both, and a split of its prompt only shortens what it gets.
-/

namespace KvOffload.EngineBudgets

open KvOffload KvOffload.Base KvOffload.EngineState KvOffload.EngineScheduling
open KvOffload.FiniteTotals

set_option autoImplicit false

section Tokens

variable {config : EngineConfig}

theorem aligned_le (config : EngineConfig) (position : Int) :
    position / config.blockSize * config.blockSize ≤ position :=
  Int.ediv_mul_le position (Int.natCast_ne_zero.mpr config.blockSize_pos.ne')

theorem first_stop_le (start chunkEnd : Int) (positions : List Int) :
    ((positions.filter fun stop => start < stop ∧ stop < chunkEnd).min?).getD chunkEnd ≤
      chunkEnd := by
  cases least : (positions.filter fun stop => start < stop ∧ stop < chunkEnd).min? with
  | none => exact le_rfl
  | some stop =>
      have member := List.min?_mem least
      have inside := (List.mem_filter.mp member).2
      simp only [decide_eq_true_eq] at inside
      exact inside.2.le

/-- The split only shortens a chunk. -/
theorem mamba_split_bounds (request : Request) {numNewTokens : Int} (nonneg : 0 ≤ numNewTokens)
    (numLocal numExternal : Nat) :
    0 ≤ mambaBlockAlignedSplit config request numNewTokens numLocal numExternal ∧
      mambaBlockAlignedSplit config request numNewTokens numLocal numExternal ≤ numNewTokens := by
  unfold mambaBlockAlignedSplit
  dsimp only
  split
  · exact ⟨nonneg, le_rfl⟩
  · refine ⟨le_max_right _ _, max_le ?_ nonneg⟩
    rw [sub_le_iff_le_add']
    apply (first_stop_le _ _ _).trans
    split_ifs <;> first | exact aligned_le config _ | exact le_rfl

theorem within_threshold_bounds {numNewTokens : Int} (nonneg : 0 ≤ numNewTokens) :
    0 ≤ withinThreshold config numNewTokens ∧
      withinThreshold config numNewTokens ≤ numNewTokens := by
  unfold withinThreshold
  split
  · rename_i both
    exact ⟨Int.natCast_nonneg _, both.2.le⟩
  · exact ⟨nonneg, le_rfl⟩

end Tokens

/-- A running request has not run ahead of its tokens, drafts and placeholders, and there is room
below the maximal length for what it samples. -/
structure CaughtUp (config : EngineConfig) (request : Request) : Prop where
  behind : request.numComputedTokens ≤ request.numTokensWithSpec + request.numOutputPlaceholders
  room : request.numComputedTokens + config.numSampledTokensPerStep ≤ config.maxModelLen

theorem running_tokens_bounds {Q : Type} (engine : Engine Q) (pass : Pass) {request : Request}
    (caughtUp : CaughtUp engine.config request) (tokensLeft : 0 < pass.tokenBudget)
    (inputLeft : engine.config.draftSlots < pass.inputBudget) :
    0 ≤ runningTokens engine pass request ∧
      runningTokens engine pass request ≤ pass.tokenBudget ∧
      runningTokens engine pass request + engine.config.draftSlots ≤ pass.inputBudget := by
  have behind := caughtUp.behind
  have room := caughtUp.room
  have behindBy : 0 ≤ request.numTokensWithSpec + request.numOutputPlaceholders -
      request.numComputedTokens := by omega
  have wanted := (@within_threshold_bounds engine.config _ behindBy).1
  unfold runningTokens
  dsimp only
  generalize withinThreshold engine.config _ = tokens at wanted ⊢
  have granted : ∀ given : Int, 0 ≤ given → given ≤ min (min (min tokens pass.tokenBudget)
      (pass.inputBudget - engine.config.draftSlots)) (engine.config.maxModelLen -
        request.numComputedTokens - engine.config.numSampledTokensPerStep) →
      0 ≤ given ∧ given ≤ pass.tokenBudget ∧ given + engine.config.draftSlots ≤ pass.inputBudget := by
    intro given nonneg atMost
    simp only [le_min_iff] at atMost
    omega
  have nonneg : 0 ≤ min (min (min tokens pass.tokenBudget)
      (pass.inputBudget - engine.config.draftSlots)) (engine.config.maxModelLen -
        request.numComputedTokens - engine.config.numSampledTokensPerStep) := by
    simp only [le_min_iff]
    omega
  split
  · have bounds := @mamba_split_bounds engine.config request _ nonneg 0 0
    exact granted _ bounds.1 bounds.2
  · exact granted _ nonneg le_rfl

/-- What a step has given and what is left of its budgets. -/
structure Balanced (config : EngineConfig) (budget : Int) (pass : Pass) : Prop where
  scheduled : pass.numScheduledTokens.keys.Perm
    (pass.scheduledNewReqs ++ pass.scheduledResumedReqs ++ pass.scheduledRunningReqs)
  positive : ∀ reqId tokens, pass.numScheduledTokens.get? reqId = some tokens → 0 < tokens
  tokens : mapTotal pass.numScheduledTokens (fun tokens => tokens) + pass.tokenBudget = budget
  inputs : mapTotal pass.numScheduledTokens (· + (config.draftSlots : Int)) + pass.inputBudget =
    config.maxNumBatchedTokens
  tokensLeft : 0 ≤ pass.tokenBudget
  inputsLeft : 0 ≤ pass.inputBudget

section Budgets

variable {config : EngineConfig} {budget : Int} {pass : Pass}

theorem balanced_start (config : EngineConfig) (pauseState : PauseState) :
    Balanced config (Pass.start config pauseState).tokenBudget (Pass.start config pauseState) where
  scheduled := List.Perm.nil
  positive reqId tokens found := by
    rw [show (Pass.start config pauseState).numScheduledTokens = .empty from rfl,
      OrderedMap.get_empty] at found
    cases found
  tokens := by
    rw [show (Pass.start config pauseState).numScheduledTokens = .empty from rfl,
      map_total_empty, zero_add]
  inputs := by
    rw [show (Pass.start config pauseState).numScheduledTokens = .empty from rfl,
      map_total_empty, zero_add]
    rfl
  tokensLeft := by
    unfold Pass.start
    dsimp only
    split
    · exact le_rfl
    · exact Int.natCast_nonneg _
  inputsLeft := Int.natCast_nonneg _

theorem start_budget_le (config : EngineConfig) (pauseState : PauseState) :
    (Pass.start config pauseState).tokenBudget ≤ config.maxNumScheduledTokens := by
  unfold Pass.start
  dsimp only
  split
  · exact Int.natCast_nonneg _
  · exact le_rfl

/-- A request that has nothing yet is given no more than what is left. -/
theorem Balanced.charged (balanced : Balanced config budget pass) {charged : Pass} {reqId : ReqId}
    {numNewTokens : Int} (fresh : pass.numScheduledTokens.get? reqId = none)
    (positive : 0 < numNewTokens) (withinTokens : numNewTokens ≤ pass.tokenBudget)
    (withinInputs : numNewTokens + config.draftSlots ≤ pass.inputBudget)
    (scheduled : (charged.scheduledNewReqs ++ charged.scheduledResumedReqs ++
      charged.scheduledRunningReqs).Perm ((pass.scheduledNewReqs ++ pass.scheduledResumedReqs ++
        pass.scheduledRunningReqs) ++ [reqId]))
    (given : charged.numScheduledTokens = pass.numScheduledTokens.set reqId numNewTokens)
    (tokens : charged.tokenBudget = pass.tokenBudget - numNewTokens)
    (inputs : charged.inputBudget = pass.inputBudget - (numNewTokens + config.draftSlots)) :
    Balanced config budget charged where
  scheduled := by
    rw [given, OrderedMap.keys_set_of_fresh _ _ fresh]
    exact (balanced.scheduled.append_right _).trans scheduled.symm
  positive other amount found := by
    rw [given, OrderedMap.get_set] at found
    split at found
    · cases found
      exact positive
    · exact balanced.positive other amount found
  tokens := by
    have total := map_total_set pass.numScheduledTokens reqId numNewTokens fun tokens => tokens
    rw [fresh] at total
    have before := balanced.tokens
    simp only [Option.elim_none] at total
    rw [given, tokens]
    omega
  inputs := by
    have total := map_total_set pass.numScheduledTokens reqId numNewTokens
      (· + (config.draftSlots : Int))
    rw [fresh] at total
    have before := balanced.inputs
    simp only [Option.elim_none] at total
    rw [given, inputs]
    omega
  tokensLeft := by
    rw [tokens]
    omega
  inputsLeft := by
    rw [inputs]
    omega

/-- Whom the step has preempted does not count. -/
theorem Balanced.noted (balanced : Balanced config budget pass) (preempted : List ReqId) :
    Balanced config budget { pass with preemptedReqs := preempted } :=
  ⟨balanced.scheduled, balanced.positive, balanced.tokens, balanced.inputs, balanced.tokensLeft,
    balanced.inputsLeft⟩

/-- A scheduled running request gives back what it was given. -/
theorem Balanced.restored (balanced : Balanced config budget pass) {taken : ReqId} {restored : Int}
    (found : pass.numScheduledTokens.get? taken = some restored)
    (ran : taken ∈ pass.scheduledRunningReqs) :
    Balanced config budget (pass.restore config taken restored) where
  scheduled := by
    have distinct := balanced.scheduled.nodup_iff.mp (OrderedMap.keys_nodup _)
    have separate := (List.nodup_append.mp distinct).2.2
    have erased := balanced.scheduled.erase taken
    have elsewhere : taken ∉ pass.scheduledNewReqs ++ pass.scheduledResumedReqs :=
      fun other => separate taken other taken ran rfl
    rw [List.erase_append_right _ elsewhere] at erased
    have keys : (pass.restore config taken restored).numScheduledTokens.keys =
        pass.numScheduledTokens.keys.erase taken := by
      show (pass.numScheduledTokens.erase taken).keys = _
      rw [OrderedMap.keys_erase, List.Nodup.erase_eq_filter (OrderedMap.keys_nodup _)]
      apply List.filter_congr
      intro other _
      rw [Bool.eq_iff_iff, decide_eq_true_iff, bne_iff_ne]
    rw [keys]
    exact erased
  positive other amount found := by
    change (pass.numScheduledTokens.erase taken).get? other = some amount at found
    rw [OrderedMap.get_erase] at found
    split at found
    · cases found
    · exact balanced.positive other amount found
  tokens := by
    have total := map_total_erase pass.numScheduledTokens taken fun tokens : Int => tokens
    rw [found] at total
    have before := balanced.tokens
    show mapTotal (pass.numScheduledTokens.erase taken) (fun tokens => tokens) +
      (pass.tokenBudget + restored) = budget
    simp only [Option.elim_some] at total
    omega
  inputs := by
    have total := map_total_erase pass.numScheduledTokens taken (· + (config.draftSlots : Int))
    rw [found] at total
    have before := balanced.inputs
    show mapTotal (pass.numScheduledTokens.erase taken) (· + (config.draftSlots : Int)) +
      (pass.inputBudget + (restored + config.draftSlots)) = _
    simp only [Option.elim_some] at total
    omega
  tokensLeft := by
    have positive := balanced.positive taken restored found
    have left := balanced.tokensLeft
    show 0 ≤ pass.tokenBudget + restored
    omega
  inputsLeft := by
    have positive := balanced.positive taken restored found
    have left := balanced.inputsLeft
    show 0 ≤ pass.inputBudget + (restored + config.draftSlots)
    omega

/-- The assertions at the end of a step hold. -/
theorem Balanced.within_limits {Q : Type} {engine : Engine Q}
    (balanced : Balanced engine.config budget pass)
    (atMost : budget ≤ engine.config.maxNumScheduledTokens)
    (running : ∀ reqId ∈ pass.numScheduledTokens.keys, reqId ∈ engine.running)
    (room : engine.running.length ≤ engine.config.maxNumRunningReqs) :
    WithinLimits engine pass := by
  have tokens := balanced.tokens
  rw [map_total_eq_sum, List.map_id'] at tokens
  have left := balanced.tokensLeft
  have lengths := balanced.scheduled.length_eq
  rw [List.length_append, List.length_append] at lengths
  have fewer := (List.subperm_of_subset (OrderedMap.keys_nodup pass.numScheduledTokens)
    running).length_le
  refine ⟨?_, left, balanced.inputsLeft, room, lengths ▸ fewer⟩
  change (pass.numScheduledTokens.entries.map Prod.snd).sum + _ = _ at tokens
  omega

end Budgets

end KvOffload.EngineBudgets
