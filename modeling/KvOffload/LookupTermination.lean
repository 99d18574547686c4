import KvOffload.ConnectorLookup

/-!
# Termination of the lookup passes

The candidate boundary is the measure of the search: a pass that asks for another one has
lowered it, whatever the manager answered. The loop is written once more with a bound on
its passes, and the bound that the first boundary gives is never used up.
-/

namespace KvOffload.LookupTermination

open KvOffload KvOffload.Base KvOffload.ConnectorConfig KvOffload.ConnectorRequests
open KvOffload.ManagerInterface KvOffload.ConnectorLookup

set_option autoImplicit false

variable {M : Type} [OffloadingLookup M]

/-- What the loop holds before a pass. -/
structure SearchState (M : Type) (numComputedTokens : Nat) where
  search : Convergence numComputedTokens
  manager : M
  groups : List GroupOffloadConfig

variable (config : SchedulerOffloadConfig) (mirrorLocal : Bool) (status : RequestOffloadState)
variable {numComputedTokens : Nat}

/-- A pass returns and asks for another one. -/
def Reschedules (before after : SearchState M numComputedTokens) : Prop :=
  lookupPass config mirrorLocal status before.search.startPass before.manager before.groups =
      .ok (some after.search, after.manager) ∧
    after.groups = after.search.lookupGroups ∧ after.groups ≠ []

/-- The loop with at most `passes` passes; `none` when it needs more. -/
def convergeWithin (state : Convergence numComputedTokens) (manager : M) :
    Nat → List GroupOffloadConfig →
      Option (Except PyError (Option (Convergence numComputedTokens) × M))
  | _, [] => some (.ok (some state, manager))
  | 0, _ :: _ => none
  | passes + 1, group :: rest =>
      match lookupPass config mirrorLocal status state.startPass manager (group :: rest) with
      | .error problem => some (.error problem)
      | .ok (none, manager) => some (.ok (none, manager))
      | .ok (some after, manager) =>
          convergeWithin after manager passes after.lookupGroups

variable {config mirrorLocal status}

theorem pass_lowers {state after : Convergence numComputedTokens} {manager last : M}
    {groups : List GroupOffloadConfig}
    (passed : lookupPass config mirrorLocal status state.startPass manager groups =
      .ok (some after, last)) (again : after.lookupGroups ≠ []) :
    after.maxHitSizeTokens < state.maxHitSizeTokens := by
  obtain ⟨_, same | lower⟩ := lookup_pass_lowers groups passed
  · exact absurd same again
  · exact lower

theorem reschedules_lowers {before after : SearchState M numComputedTokens}
    (step : Reschedules config mirrorLocal status before after) :
    after.search.maxHitSizeTokens < before.search.maxHitSizeTokens := by
  obtain ⟨passed, groups, again⟩ := step
  rw [groups] at again
  exact pass_lowers passed again

theorem converge_within_enough {passes : Nat} (state : Convergence numComputedTokens)
    (manager : M) (groups : List GroupOffloadConfig)
    (enough : groups ≠ [] → state.maxHitSizeTokens < passes) :
    convergeWithin config mirrorLocal status state manager passes groups =
      some (converge config mirrorLocal status state manager groups) := by
  induction passes generalizing state manager groups with
  | zero =>
      cases groups with
      | nil => simp [convergeWithin, converge]
      | cons group rest => exact absurd (enough (List.cons_ne_nil _ _)) (Nat.not_lt_zero _)
  | succ passes ih =>
      cases groups with
      | nil => simp [convergeWithin, converge]
      | cons group rest =>
          have bound := enough (List.cons_ne_nil _ _)
          unfold convergeWithin
          rw [converge]
          cases passed : lookupPass config mirrorLocal status state.startPass manager
              (group :: rest) with
          | error problem => simp
          | ok answer =>
              obtain ⟨found, last⟩ := answer
              cases found with
              | none => simp
              | some after =>
                  simp only
                  apply ih
                  intro again
                  have lower := pass_lowers passed again
                  omega

/-- The passes that a search makes one after the other. -/
inductive Rescheduled (config : SchedulerOffloadConfig) (mirrorLocal : Bool)
    (status : RequestOffloadState) (start : SearchState M numComputedTokens) :
    Nat → SearchState M numComputedTokens → Prop where
  | start : Rescheduled config mirrorLocal status start 0 start
  | pass {count : Nat} {before after : SearchState M numComputedTokens}
      (earlier : Rescheduled config mirrorLocal status start count before)
      (step : Reschedules config mirrorLocal status before after) :
      Rescheduled config mirrorLocal status start (count + 1) after

theorem rescheduled_bounded {start after : SearchState M numComputedTokens} {count : Nat}
    (run : Rescheduled config mirrorLocal status start count after) :
    count + after.search.maxHitSizeTokens ≤ start.search.maxHitSizeTokens := by
  induction run with
  | start => exact (Nat.zero_add _).le
  | pass _ step ih =>
      have lower := reschedules_lowers step
      omega

variable (config mirrorLocal status)

/-- Every pass that asks for another one lowers the boundary, so there are at most as many as
the first boundary, and the loop returns within one pass more. -/
theorem lookup_passes_terminate (start : SearchState M numComputedTokens) :
    (∀ before after : SearchState M numComputedTokens,
        Reschedules config mirrorLocal status before after →
          after.search.maxHitSizeTokens < before.search.maxHitSizeTokens) ∧
      (∀ count after, Rescheduled config mirrorLocal status start count after →
        count ≤ start.search.maxHitSizeTokens) ∧
      convergeWithin config mirrorLocal status start.search start.manager
          (start.search.maxHitSizeTokens + 1) start.groups =
        some (converge config mirrorLocal status start.search start.manager start.groups) := by
  refine ⟨fun before after step => reschedules_lowers step, ?_, ?_⟩
  · intro count after run
    have bounded := rescheduled_bounded run
    omega
  · apply converge_within_enough
    exact fun _ => Nat.lt_succ_self _

section Flicker

/-- A manager that answers by the number of the call. -/
structure Flicker where
  answers : List LookupResult

instance : OffloadingLookup Flicker where
  lookup manager _ _ := .ok (manager.answers.headD .miss, ⟨manager.answers.tail⟩)
  touch manager _ := manager

def flickerGroups : List OffloadingGroupConfig := [⟨2, 0⟩, ⟨2, 1⟩]

def flickerSpec : OffloadingSpec where
  groups := flickerGroups
  kvCacheGroups := [⟨.fullAttention, false⟩, ⟨.slidingWindow 2 Nat.two_pos, false⟩]
  blocksPerChunk := 1
  tokensPerHash := 2
  worldSize := 1
  decodeContextParallelSize := 1
  offloadPromptOnly := false
  useEagle := false
  ordered := by decide
  bounded := by decide
  blocks_pos := Nat.one_pos
  hash_pos := Nat.two_pos
  hash_fits := by decide

def flickerStatus : RequestOffloadState :=
  (RequestOffloadState.new ⟨0, 7, 7, 0, [[0], [1], [2]], .unfinished, false, .all, none⟩
    { reqId := 0 } .blockLevel).updateOffloadKeys (.fromSpec flickerSpec)

/-- The last chunk of the full-attention group is retried, and the window group misses its
own last chunk. -/
def flickerStart : SearchState Flicker 0 where
  search :=
    { maxHitSizeTokens := 6
      numHitTokens := 0
      deferLookup := false
      eagleVerified := []
      lookedUpSlidingWindow := false
      lookupGroups := []
      hit_le := Nat.zero_le _ }
  manager := ⟨[.hit, .hit, .retry, .miss, .hit]⟩
  groups := (SchedulerOffloadConfig.fromSpec flickerSpec).lookupGroups

theorem deferred_pass_lowers : ∃ after,
    Reschedules (.fromSpec flickerSpec) false flickerStatus flickerStart after ∧
      after.search.maxHitSizeTokens < flickerStart.search.maxHitSizeTokens := by
  have passed : (lookupPass (.fromSpec flickerSpec) false flickerStatus
      flickerStart.search.startPass flickerStart.manager flickerStart.groups).map
        (fun answer => answer.1.map fun search => search.lookupGroups.isEmpty) =
      .ok (some false) := by decide +kernel
  obtain ⟨⟨found, manager⟩, returned, seen⟩ := map_eq_ok.mp passed
  obtain ⟨search, rfl, groups⟩ := Option.map_eq_some_iff.mp seen
  have again : search.lookupGroups ≠ [] := by
    intro none
    rw [none] at groups
    cases groups
  have step : Reschedules (.fromSpec flickerSpec) false flickerStatus flickerStart
      ⟨search, manager, search.lookupGroups⟩ := ⟨returned, rfl, again⟩
  exact ⟨_, step, (lookup_passes_terminate _ _ _ flickerStart).1 _ _ step⟩

end Flicker

end KvOffload.LookupTermination
