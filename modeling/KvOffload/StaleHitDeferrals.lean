import KvOffload.FenceRuns
import KvOffload.StaleHitRuns

/-!
# Deferred lookups and the stale-hit ladder

A deferred lookup takes the same way through the ladder as a resolved one that differs from
the last: it starts over. So it leaves the ladder alone only where the ladder is at rest.
-/

namespace KvOffload.StaleHitDeferrals

open KvOffload KvOffload.Base KvOffload.ConnectorRequests KvOffload.ManagerInterface
open KvOffload.StaleHitLadder KvOffload.ConnectorScheduler KvOffload.StaleHitRuns
open KvOffload.ConnectorRuns

set_option autoImplicit false

/-- What decides when a request falls back or escapes. The pin, the refusal window and the
time of the last lookup are apart. -/
structure Rungs where
  streak : Nat
  repeatCount : Nat
  fallbackCount : Nat
  wallStart : Rat
  escape : Bool
  escapeClaimActive : Bool
  escapeClaimHitTokens : Int
  escapeClaimNumComputed : Int
  lastHitTokens : Option Int
  lastNumComputed : Int
  deriving DecidableEq

def rungs (staleHit : StaleHit) : Rungs where
  streak := staleHit.streak
  repeatCount := staleHit.repeatCount
  fallbackCount := staleHit.fallbackCount
  wallStart := staleHit.wallStart
  escape := staleHit.escape
  escapeClaimActive := staleHit.escapeClaimActive
  escapeClaimHitTokens := staleHit.escapeClaimHitTokens
  escapeClaimNumComputed := staleHit.escapeClaimNumComputed
  lastHitTokens := staleHit.lastHitTokens
  lastNumComputed := staleHit.lastNumComputed

/-- Nothing has accrued, no claim is held, and the last lookup was deferred at the same
boundary. -/
structure AtRest (numComputedTokens : Nat) (staleHit : StaleHit) : Prop where
  streak : staleHit.streak = 0
  repeats : staleHit.repeatCount = 0
  fallbacks : staleHit.fallbackCount = 0
  wall : staleHit.wallStart = 0
  held : staleHit.escape = false
  unclaimed : staleHit.escapeClaimActive = false
  claimHit : staleHit.escapeClaimHitTokens = -1
  claimComputed : staleHit.escapeClaimNumComputed = -1
  deferred : staleHit.lastHitTokens = none
  computed : staleHit.lastNumComputed = numComputedTokens

section Ladder

variable {staleHit : StaleHit} {clock : Clock} {numComputedTokens : Nat}

theorem deferred_at_rest (now : Rat) : AtRest numComputedTokens (StaleHit.remember
    (StaleHit.startOver staleHit numComputedTokens none) numComputedTokens now none) := by
  unfold StaleHit.startOver
  rw [if_pos (.inl nofun)]
  constructor <;> rfl

/-- A deferred lookup never falls back, and the ladder starts over. -/
theorem climb_deferred (settings : StaleHitSettings) :
    StaleHit.climb settings staleHit clock numComputedTokens none =
      (false, StaleHit.remember (StaleHit.startOver staleHit numComputedTokens none)
        numComputedTokens clock.now none, clock.tick) := by
  unfold StaleHit.climb
  dsimp only
  rw [if_neg]
  rintro ⟨hit, _⟩
  exact absurd hit (Nat.lt_irrefl 0)

theorem rungs_at_rest {other : StaleHit} (rest : AtRest numComputedTokens staleHit) :
    rungs staleHit = rungs other ↔ AtRest numComputedTokens other := by
  constructor
  · intro same
    unfold rungs at same
    rw [Rungs.mk.injEq] at same
    obtain ⟨streak, repeats, fallbacks, wall, held, claim, claimHit, claimComputed, hit,
      computed⟩ := same
    exact ⟨streak ▸ rest.streak, repeats ▸ rest.repeats, fallbacks ▸ rest.fallbacks,
      wall ▸ rest.wall, held ▸ rest.held, claim ▸ rest.unclaimed, claimHit ▸ rest.claimHit,
      claimComputed ▸ rest.claimComputed, hit ▸ rest.deferred, computed ▸ rest.computed⟩
  · intro also
    unfold rungs
    rw [rest.streak, rest.repeats, rest.fallbacks, rest.wall, rest.held, rest.unclaimed,
      rest.claimHit, rest.claimComputed, rest.deferred, rest.computed, also.streak,
      also.repeats, also.fallbacks, also.wall, also.held, also.unclaimed, also.claimHit,
      also.claimComputed, also.deferred, also.computed]

end Ladder

section Calls

variable {M : Type} [OffloadingManager M] {scheduler after : OffloadingConnectorScheduler M}
  {reqId : ReqId} {numComputedTokens : Nat} {isAsync : Bool}

theorem answer_hit_deferred {status : RequestOffloadState} {numHitTokens : Option Nat}
    (called : scheduler.answerHit reqId status numComputedTokens numHitTokens =
      .ok ((none, isAsync), after)) :
    ∃ later, after.reqStatus.get? reqId = some later ∧
      AtRest numComputedTokens later.staleHit := by
  unfold OffloadingConnectorScheduler.answerHit at called
  dsimp only at called
  split at called
  · cases called
  · obtain ⟨manager, _, called⟩ := bind_eq_ok.mp called
    cases numHitTokens with
    | none =>
        rw [climb_deferred] at called
        cases called
        exact ⟨_, (OrderedMap.get_set ..).trans (if_pos rfl), deferred_at_rest _⟩
    | some numHitTokens =>
        generalize StaleHit.climb _ _ _ _ _ = climbed at called
        obtain ⟨fallsBack, climbed, clock⟩ := climbed
        dsimp only at called
        split at called
        · cases called
        · cases called

/-- A deferred call leaves the ladder as it was exactly when a transfer of the request held it
back, before any lookup, or the ladder was at rest. -/
theorem deferred_call_exact {status : RequestOffloadState}
    (tracked : scheduler.reqStatus.get? reqId = some status)
    (deferred : scheduler.getNumNewMatchedTokens reqId numComputedTokens =
      .ok ((none, isAsync), after)) :
    ∃ later, after.reqStatus.get? reqId = some later ∧
      (rungs later.staleHit = rungs status.staleHit ↔
        status.transferJobs ≠ [] ∨ AtRest numComputedTokens status.staleHit) := by
  unfold OffloadingConnectorScheduler.getNumNewMatchedTokens
    OffloadingConnectorScheduler.statusOf at deferred
  rw [tracked, py_item_some, ok_bind] at deferred
  dsimp only at deferred
  have same : status.clearBlockIds.transferJobs = status.transferJobs := rfl
  rw [same] at deferred
  by_cases waits : status.transferJobs ≠ []
  · rw [if_pos waits] at deferred
    cases deferred
    exact ⟨_, (OrderedMap.get_set ..).trans (if_pos rfl), fun _ => .inl waits, fun _ => rfl⟩
  · rw [if_neg waits] at deferred
    have rested : ∃ later, after.reqStatus.get? reqId = some later ∧
        AtRest numComputedTokens later.staleHit := by
      split at deferred
      · cases deferred
      · split at deferred
        · cases deferred
        · obtain ⟨⟨numHitTokens, looked, manager⟩, _, answered⟩ := bind_eq_ok.mp deferred
          exact answer_hit_deferred answered
    obtain ⟨later, found, rest⟩ := rested
    refine ⟨later, found, (rungs_at_rest rest).trans ?_⟩
    constructor
    · exact .inr
    · exact fun either => either.resolve_left waits

end Calls

/-- A second request with the blocks of the first. -/
def followRequest : Request :=
  ⟨1, 9, 9, 0, [[0], [1], [2], [3]], .unfinished, false, .all, none⟩

/-- The first block is stored and hit twice, then the second one is being stored. -/
def followEvents : List ConnectorEvent :=
  .newRequest (FenceRuns.slideRequest 0) :: FenceRuns.slideStep 0 1 0 ++
    [.newRequest followRequest, .getNumNewMatchedTokens 1 0, .getNumNewMatchedTokens 1 0] ++
    (FenceRuns.slideStep 2 2 1).take 2

/-- The ladder of the second request now, the answer to another lookup, and the ladder then. -/
structure Glimpse where
  now : Option Rungs
  answer : Option (Option Nat × Bool)
  later : Option Rungs
  deriving DecidableEq

def ladderOf {M : Type} (scheduler : OffloadingConnectorScheduler M) : Option Rungs :=
  (scheduler.reqStatus.get? 1).map fun status => rungs status.staleHit

def glimpse {M : Type} [OffloadingManager M] (state : RunState M) : Glimpse :=
  match state.scheduler.getNumNewMatchedTokens 1 0 with
  | .error _ => ⟨ladderOf state.scheduler, none, none⟩
  | .ok (answer, after) => ⟨ladderOf state.scheduler, some answer, ladderOf after⟩

theorem glimpse_deferred {M : Type} [OffloadingManager M] {state : RunState M}
    {before : Rungs} {later : Option Rungs}
    (seen : glimpse state = ⟨some before, some (none, false), later⟩) :
    ∃ status after, state.scheduler.reqStatus.get? 1 = some status ∧
      rungs status.staleHit = before ∧
      state.scheduler.getNumNewMatchedTokens 1 0 = .ok ((none, false), after) ∧
      ladderOf after = later := by
  unfold glimpse at seen
  split at seen
  · simp at seen
  · rename_i answer after called
    rw [Glimpse.mk.injEq, Option.some.injEq] at seen
    obtain ⟨now, answered, then_⟩ := seen
    obtain ⟨status, tracked, same⟩ := Option.map_eq_some_iff.mp now
    exact ⟨status, after, tracked, same, answered ▸ called, then_⟩

/-- The hit was repeated once; a deferred lookup at the same boundary clears the streak and
forgets the hit. -/
theorem deferral_clears_streak :
    ∃ state, EventRuns.Reaches RunState.apply RunState.Permitted FenceRuns.slideStart state ∧
      ∃ status after later, state.scheduler.reqStatus.get? 1 = some status ∧
      state.scheduler.getNumNewMatchedTokens 1 0 = .ok ((none, false), after) ∧
      after.reqStatus.get? 1 = some later ∧ status.staleHit.lastNumComputed = 0 ∧
      rungs later.staleHit ≠ rungs status.staleHit := by
  have ran : (EventRuns.replay RunState.apply RunState.Permitted FenceRuns.slideStart
      followEvents).map glimpse =
      some ⟨some ⟨1, 1, 0, 0, false, false, -1, -1, some 2, 0⟩, some (none, false),
        some ⟨0, 0, 0, 0, false, false, -1, -1, none, 0⟩⟩ := by decide +kernel
  obtain ⟨state, reaches, seen⟩ := EventRuns.exists_of_replay ran
  obtain ⟨status, after, tracked, before, called, shown⟩ := glimpse_deferred seen
  obtain ⟨later, found, now⟩ := Option.map_eq_some_iff.mp shown
  refine ⟨state, reaches, status, after, later, tracked, called, found, ?_, ?_⟩
  · exact congrArg Rungs.lastNumComputed before
  · rw [before, now]
    decide

/-- A deferral right after a deferral changes nothing. -/
theorem second_deferral_rests :
    ∃ (state : RunState (CpuManager.CPUOffloadingManager LruPolicy.LRUCachePolicy))
      (status later : RequestOffloadState),
      state.scheduler.reqStatus.get? 1 = some status ∧
      rungs later.staleHit = rungs status.staleHit := by
  have ran : (EventRuns.replay RunState.apply RunState.Permitted FenceRuns.slideStart
      (followEvents ++ [.getNumNewMatchedTokens 1 0])).map glimpse =
      some ⟨some ⟨0, 0, 0, 0, false, false, -1, -1, none, 0⟩, some (none, false),
        some ⟨0, 0, 0, 0, false, false, -1, -1, none, 0⟩⟩ := by decide +kernel
  obtain ⟨state, _, seen⟩ := EventRuns.exists_of_replay ran
  obtain ⟨status, after, tracked, now, called, _⟩ := glimpse_deferred seen
  have rest : AtRest 0 status.staleHit :=
    (rungs_at_rest (@deferred_at_rest {} 0 0)).mp now.symm
  obtain ⟨later, _, kept⟩ := deferred_call_exact tracked called
  exact ⟨state, status, later, tracked, kept.mpr (.inr rest)⟩

end KvOffload.StaleHitDeferrals
