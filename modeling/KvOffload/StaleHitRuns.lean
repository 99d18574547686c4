import KvOffload.LoadTransfer

/-!
# Bounded stale hits

However often an unchanged hit is offered, it is answered at most `limit * budget` times:
every fallback ends a cycle of at most `budget` answers, and after `limit` fallbacks the
request escapes and keeps its claim.
-/

namespace KvOffload.StaleHitRuns

open KvOffload KvOffload.Base KvOffload.ConnectorConfig KvOffload.ConnectorRequests
open KvOffload.ManagerInterface KvOffload.StaleHitLadder KvOffload.ConnectorScheduler

set_option autoImplicit false

section Ladder

variable {settings : StaleHitSettings} {staleHit : StaleHit} {clock : Clock}
  {numComputedTokens numHitTokens given : Nat}

variable (settings staleHit clock numComputedTokens numHitTokens) in
/-- The gates after a lookup that found `numHitTokens`. -/
def ladderAnswer : Bool × StaleHit × Clock :=
  match StaleHit.claimGate settings staleHit clock numComputedTokens (some numHitTokens) with
  | (true, blocked, clock) => (true, blocked, clock)
  | (false, _, _) => StaleHit.climb settings staleHit clock numComputedTokens (some numHitTokens)

variable (settings staleHit clock numComputedTokens numHitTokens) in
/-- A whole call whose lookup, if one is made, finds `numHitTokens`. The flag says whether
it answers zero. -/
def ladderCall : Bool × StaleHit × Clock :=
  match StaleHit.escapeGate settings staleHit clock numComputedTokens with
  | (true, held, clock) => (true, held, clock)
  | (false, released, clock) =>
      match StaleHit.pinGate settings released clock numComputedTokens with
      | (true, pinned, clock) => (true, pinned, clock)
      | (false, unpinned, clock) =>
          ladderAnswer settings unpinned clock numComputedTokens numHitTokens

/-- A time that was read between two states of the clock. -/
def ReadIn (before after : Clock) (time : Rat) : Prop :=
  ∃ index, before.reads ≤ index ∧ index < after.reads ∧ time = before.readings index

def Unpinned (settings : StaleHitSettings) (staleHit : StaleHit) : Prop :=
  settings.staleHitPinSeconds ≤ 0 ∨ staleHit.pinnedUntil = 0

/-- Below the limit. A cycle starts after a fallback; inside it the last call gave the hit,
so nothing but repeats can follow. -/
structure Climbing (settings : StaleHitSettings) (numComputedTokens numHitTokens given : Nat)
    (recent : Rat → Prop) (staleHit : StaleHit) : Prop where
  held : staleHit.escape = false
  unclaimed : staleHit.escapeClaimActive = false
  hit : staleHit.lastHitTokens = some (Int.ofNat numHitTokens)
  computed : staleHit.lastNumComputed = numComputedTokens
  fallbacks : staleHit.fallbackCount < settings.staleHitFallbackLimit
  cycle :
    (staleHit.streak = 0 ∧ given ≤ staleHit.fallbackCount * settings.staleHitMaxLookups) ∨
    (Unpinned settings staleHit ∧ recent staleHit.lastTs ∧
      staleHit.streak < settings.staleHitMaxLookups ∧
      given ≤ staleHit.fallbackCount * settings.staleHitMaxLookups + staleHit.streak + 1)

structure Escaped (numComputedTokens : Nat) (staleHit : StaleHit) : Prop where
  escape : staleHit.escape = true
  claim : staleHit.escapeClaimActive = true
  computed : staleHit.lastNumComputed = numComputedTokens

/-- The phases of the ladder while the boundary and the hit stay the same. -/
inductive Phase (settings : StaleHitSettings) (numComputedTokens numHitTokens given : Nat)
    (recent : Rat → Prop) (staleHit : StaleHit) : Prop where
  | fresh (nothing : given = 0) (initial : staleHit = {})
  | climbing (climbing : Climbing settings numComputedTokens numHitTokens given recent staleHit)
  | escaped (bounded : given ≤ settings.staleHitFallbackLimit * settings.staleHitMaxLookups)
      (escaped : Escaped numComputedTokens staleHit)

theorem escape_wall_holds (escaped : Escaped numComputedTokens staleHit) (clock : Clock) :
    (StaleHit.escapeWall settings staleHit clock).1 = true ∧
      Escaped numComputedTokens (StaleHit.escapeWall settings staleHit clock).2.1 := by
  unfold StaleHit.escapeWall
  simp only [escaped.claim, if_true]
  split
  · exact ⟨rfl, escaped.escape, rfl, escaped.computed⟩
  · exact ⟨rfl, escaped.escape, rfl, escaped.computed⟩

theorem escape_gate_holds (escaped : Escaped numComputedTokens staleHit) :
    (StaleHit.escapeGate settings staleHit clock numComputedTokens).1 = true ∧
      Escaped numComputedTokens
        (StaleHit.escapeGate settings staleHit clock numComputedTokens).2.1 := by
  unfold StaleHit.escapeGate
  rw [if_neg (by simp [escaped.escape]), if_neg (by simp [escaped.computed])]
  dsimp only
  by_cases walled : 0 < settings.escapeWallSecs ∧ settings.escapeWallSecs ≤
      if decide (0 < staleHit.wallStart) = true then clock.now - staleHit.wallStart else 0
  · rw [if_pos walled]
    exact escape_wall_holds escaped _
  · rw [if_neg walled]
    exact ⟨rfl, escaped⟩

theorem escaped_call (escaped : Escaped numComputedTokens staleHit) :
    (ladderCall settings staleHit clock numComputedTokens numHitTokens).1 = true ∧
      Escaped numComputedTokens
        (ladderCall settings staleHit clock numComputedTokens numHitTokens).2.1 := by
  obtain ⟨answered, kept⟩ := @escape_gate_holds settings staleHit clock numComputedTokens escaped
  unfold ladderCall
  split
  · rename_i held _ gate
    rw [gate] at kept
    exact ⟨rfl, kept⟩
  · rename_i gate
    rw [gate] at answered
    cases answered

/-- The two gates before the lookup, below the limit. -/
theorem held_gates (held : staleHit.escape = false) (unclaimed : staleHit.escapeClaimActive = false) :
    (Unpinned settings staleHit ∧
      ladderCall settings staleHit clock numComputedTokens numHitTokens =
        StaleHit.climb settings staleHit clock numComputedTokens (some numHitTokens)) ∨
    (¬Unpinned settings staleHit ∧
      (ladderCall settings staleHit clock numComputedTokens numHitTokens =
          (true, staleHit, clock.tick) ∨
        ladderCall settings staleHit clock numComputedTokens numHitTokens =
          StaleHit.climb settings { staleHit with pinnedUntil := 0 } clock.tick
            numComputedTokens (some numHitTokens))) := by
  unfold ladderCall StaleHit.escapeGate
  simp only [held, if_true]
  unfold StaleHit.pinGate
  by_cases unpinned : Unpinned settings staleHit
  · left
    refine ⟨unpinned, ?_⟩
    unfold Unpinned at unpinned
    simp only [unpinned, if_true]
    unfold ladderAnswer StaleHit.claimGate
    simp [unclaimed]
  · right
    refine ⟨unpinned, ?_⟩
    unfold Unpinned at unpinned
    simp only [unpinned, if_false]
    by_cases ends : staleHit.pinnedUntil ≤ clock.now ∨
        (numComputedTokens : Int) ≠ staleHit.lastNumComputed
    · right
      simp only [ends, if_true]
      unfold ladderAnswer StaleHit.claimGate
      simp [unclaimed, held]
    · left
      simp only [ends, if_false]

/-- A fallback ends the cycle, or the request escapes with the claim. -/
theorem fallback_phase {recent : Rat → Prop} (refusal : 0 < settings.escapeRefusalSecs)
    (held : staleHit.escape = false) (unclaimed : staleHit.escapeClaimActive = false)
    (hit : staleHit.lastHitTokens = some (Int.ofNat numHitTokens))
    (computed : staleHit.lastNumComputed = numComputedTokens)
    (fallbacks : staleHit.fallbackCount < settings.staleHitFallbackLimit)
    (bounded : given ≤ (staleHit.fallbackCount + 1) * settings.staleHitMaxLookups) (now : Rat) :
    Phase settings numComputedTokens numHitTokens given recent
      (StaleHit.fallback settings staleHit clock numComputedTokens now numHitTokens).1 := by
  unfold StaleHit.fallback
  simp only [refusal, if_true]
  generalize (if 0 < staleHit.wallStart then now - staleHit.wallStart else 0) = pathWall
  split
  · apply Phase.escaped
    · exact bounded.trans (Nat.mul_le_mul_right _ fallbacks)
    · exact ⟨rfl, rfl, computed⟩
  · rename_i calm
    have below : staleHit.fallbackCount + 1 < settings.staleHitFallbackLimit := by
      by_contra reached
      exact calm (.inl ⟨Nat.zero_lt_of_lt fallbacks, Nat.le_of_not_lt reached⟩)
    split
    · exact .climbing ⟨held, unclaimed, hit, computed, below, .inl ⟨rfl, bounded⟩⟩
    · exact .climbing ⟨held, unclaimed, hit, computed, below, .inl ⟨rfl, bounded⟩⟩

/-- What a climb does with a hit that repeats the last one. -/
theorem climb_repeats {recent : Rat → Prop}
    (climbing : Climbing settings numComputedTokens numHitTokens given recent staleHit)
    (unpinned : Unpinned settings staleHit) (positive : 0 < numHitTokens)
    (budget : settings.staleHitMaxLookups ≠ 0) (refusal : 0 < settings.escapeRefusalSecs)
    (close : ∀ earlier, recent earlier →
      clock.now - earlier < settings.staleHitRepeatWindow)
    {zero : Bool} {climbed : StaleHit} {after : Clock}
    (called : StaleHit.climb settings staleHit clock numComputedTokens (some numHitTokens) =
      (zero, climbed, after)) :
    Phase settings numComputedTokens numHitTokens (given + (!zero).toNat)
      (fun time => time = clock.now) climbed := by
  have repeats : 0 < (some numHitTokens).getD 0 ∧ settings.staleHitMaxLookups ≠ 0 ∧
      (some numHitTokens).map Int.ofNat = staleHit.lastHitTokens ∧
      (numComputedTokens : Int) = staleHit.lastNumComputed :=
    ⟨positive, budget, climbing.hit.symm, climbing.computed.symm⟩
  have total : given ≤ staleHit.fallbackCount * settings.staleHitMaxLookups +
      settings.staleHitMaxLookups := by
    rcases climbing.cycle with ⟨_, few⟩ | ⟨_, _, below, few⟩
    · omega
    · omega
  unfold StaleHit.climb at called
  rw [if_pos repeats] at called
  dsimp only at called
  by_cases soon : clock.now - staleHit.lastTs < settings.staleHitRepeatWindow
  · rw [if_pos soon] at called
    by_cases used : settings.staleHitMaxLookups ≤ staleHit.streak + 1
    · rw [if_pos used, Prod.mk.injEq] at called
      obtain ⟨rfl, fallen⟩ := called
      obtain rfl : _ = climbed := congrArg Prod.fst fallen
      apply fallback_phase refusal
      · exact climbing.held
      · exact climbing.unclaimed
      · exact climbing.hit
      · exact climbing.computed
      · exact climbing.fallbacks
      · simpa [Nat.succ_mul] using total
    · rw [if_neg used] at called
      cases called
      apply Phase.climbing
      refine ⟨climbing.held, climbing.unclaimed, rfl, rfl, climbing.fallbacks,
        .inr ⟨unpinned, rfl, Nat.lt_of_not_le used, ?_⟩⟩
      rcases climbing.cycle with ⟨_, few⟩ | ⟨_, _, _, few⟩
      · simp only [StaleHit.remember, Bool.not_false, Bool.toNat_true]
        omega
      · simp only [StaleHit.remember, Bool.not_false, Bool.toNat_true]
        omega
  · rw [if_neg soon] at called
    cases called
    rcases climbing.cycle with ⟨_, few⟩ | ⟨_, recently, _, _⟩
    · apply Phase.climbing
      exact ⟨climbing.held, climbing.unclaimed, rfl, rfl, climbing.fallbacks,
        .inr ⟨unpinned, rfl, Nat.pos_of_ne_zero budget, Nat.add_le_add_right few 1⟩⟩
    · exact absurd (close _ recently) soon

theorem Phase.mono {recent wider : Rat → Prop}
    (phase : Phase settings numComputedTokens numHitTokens given recent staleHit)
    (wide : ∀ time, recent time → wider time) :
    Phase settings numComputedTokens numHitTokens given wider staleHit := by
  cases phase with
  | fresh nothing initial => exact .fresh nothing initial
  | escaped bounded escaped => exact .escaped bounded escaped
  | climbing climbing =>
      apply Phase.climbing
      refine ⟨climbing.held, climbing.unclaimed, climbing.hit, climbing.computed,
        climbing.fallbacks, climbing.cycle.imp_right ?_⟩
      rintro ⟨unpinned, recently, below⟩
      exact ⟨unpinned, wide _ recently, below⟩

theorem fallback_clock (now : Rat) :
    clock.reads ≤
      (StaleHit.fallback settings staleHit clock numComputedTokens now numHitTokens).2.reads := by
  unfold StaleHit.fallback
  dsimp only
  generalize (if 0 < staleHit.wallStart then now - staleHit.wallStart else 0) = pathWall
  split
  · split
    · exact le_rfl
    · exact le_rfl
  · split
    · exact Nat.le_succ _
    · exact le_rfl

theorem climb_clock {numHit : Option Nat} {zero : Bool} {climbed : StaleHit} {after : Clock}
    (called : StaleHit.climb settings staleHit clock numComputedTokens numHit =
      (zero, climbed, after)) :
    clock.reads < after.reads := by
  unfold StaleHit.climb at called
  dsimp only at called
  split at called
  · split at called
    · split at called
      · rw [Prod.mk.injEq] at called
        obtain rfl : _ = after := congrArg Prod.snd called.2
        exact Nat.lt_of_lt_of_le (Nat.lt_succ_self clock.reads)
          (@fallback_clock settings _ clock.tick _ _ _)
      · cases called
        exact Nat.lt_succ_self _
    · cases called
      exact Nat.lt_succ_self _
  · cases called
    exact Nat.lt_succ_self _

theorem read_now {after : Clock} (later : clock.reads < after.reads) :
    ReadIn clock after clock.now :=
  ⟨clock.reads, le_rfl, later, rfl⟩

theorem read_next {after : Clock} (later : clock.tick.reads < after.reads) :
    ReadIn clock after clock.tick.now :=
  ⟨clock.reads + 1, Nat.le_succ _, later, rfl⟩

/-- The first lookup starts the ladder with one answer. -/
theorem first_call (limit : 0 < settings.staleHitFallbackLimit)
    (budget : settings.staleHitMaxLookups ≠ 0) {zero : Bool} {climbed : StaleHit} {after : Clock}
    (called : ladderCall settings {} clock numComputedTokens numHitTokens =
      (zero, climbed, after)) :
    zero = false ∧ Climbing settings numComputedTokens numHitTokens 1 (ReadIn clock after)
      climbed := by
  have unpinned : Unpinned settings {} := .inr rfl
  rcases @held_gates settings {} clock numComputedTokens numHitTokens rfl rfl with
    ⟨_, climbs⟩ | ⟨pinned, _⟩
  · rw [climbs] at called
    have later := climb_clock called
    have different : ¬(0 < (some numHitTokens).getD 0 ∧ settings.staleHitMaxLookups ≠ 0 ∧
        (some numHitTokens).map Int.ofNat = ({} : StaleHit).lastHitTokens ∧
        (numComputedTokens : Int) = ({} : StaleHit).lastNumComputed) := by
      rintro ⟨_, _, _, computed⟩
      simp at computed
    unfold StaleHit.climb at called
    rw [if_neg different] at called
    cases called
    have start : StaleHit.startOver {} numComputedTokens (some numHitTokens) = {} := by
      unfold StaleHit.startOver
      split
      · rfl
      · rfl
    rw [start]
    exact ⟨rfl, rfl, rfl, rfl, rfl, limit,
      .inr ⟨.inr rfl, read_now later, Nat.pos_of_ne_zero budget, by simp [StaleHit.remember]⟩⟩
  · exact absurd unpinned pinned

/-- One call keeps the phase and counts its answer. -/
theorem call_keeps {recent : Rat → Prop} (positive : 0 < numHitTokens)
    (limit : 0 < settings.staleHitFallbackLimit) (budget : settings.staleHitMaxLookups ≠ 0)
    (refusal : 0 < settings.escapeRefusalSecs) {zero : Bool} {called : StaleHit} {after : Clock}
    (answered : ladderCall settings staleHit clock numComputedTokens numHitTokens =
      (zero, called, after))
    (close : ∀ earlier, recent earlier → ∀ later, ReadIn clock after later →
      later - earlier < settings.staleHitRepeatWindow)
    (phase : Phase settings numComputedTokens numHitTokens given recent staleHit) :
    Phase settings numComputedTokens numHitTokens (given + (!zero).toNat) (ReadIn clock after)
      called := by
  cases phase with
  | fresh nothing initial =>
      subst nothing initial
      obtain ⟨rfl, climbing⟩ := first_call limit budget answered
      exact .climbing climbing
  | escaped bounded escaped =>
      obtain ⟨zero_eq, kept⟩ := @escaped_call settings staleHit clock _ numHitTokens escaped
      rw [answered] at zero_eq kept
      obtain rfl : zero = true := zero_eq
      exact .escaped bounded kept
  | climbing climbing =>
      rcases @held_gates settings staleHit clock numComputedTokens numHitTokens climbing.held
        climbing.unclaimed with ⟨unpinned, climbs⟩ | ⟨pinned, stays | climbs⟩
      · rw [climbs] at answered
        have now := read_now (climb_clock answered)
        apply (climb_repeats climbing unpinned positive budget refusal
          (fun earlier recently => close earlier recently _ now) answered).mono
        rintro time rfl
        exact now
      · rw [stays] at answered
        cases answered
        rcases climbing.cycle with ended | ⟨unpinned, _⟩
        · exact .climbing ⟨climbing.held, climbing.unclaimed, climbing.hit, climbing.computed,
            climbing.fallbacks, .inl ended⟩
        · exact absurd unpinned pinned
      · rw [climbs] at answered
        have now := read_next (climb_clock answered)
        rcases climbing.cycle with ended | ⟨unpinned, _⟩
        · have cleared : Climbing settings numComputedTokens numHitTokens given recent
              { staleHit with pinnedUntil := 0 } :=
            ⟨climbing.held, climbing.unclaimed, climbing.hit, climbing.computed,
              climbing.fallbacks, .inl ended⟩
          apply (climb_repeats cleared (.inr rfl) positive budget refusal
            (fun earlier recently => close earlier recently _ now) answered).mono
          rintro time rfl
          exact now
        · exact absurd unpinned pinned

end Ladder

section Calls

variable {M : Type} [OffloadingManager M] {scheduler after : OffloadingConnectorScheduler M}
  {reqId : ReqId} {numComputedTokens numHitTokens : Nat} {answer : OffloadingConnectorScheduler.Matched}

/-- The lookup that a call makes if the gates before it let it through. -/
def performedLookup (scheduler : OffloadingConnectorScheduler M) (reqId : ReqId)
    (numComputedTokens : Nat) : Option (Except PyError (Option Nat)) :=
  (scheduler.reqStatus.get? reqId).bind fun status =>
    match StaleHit.escapeGate scheduler.settings.staleHit status.staleHit scheduler.clock
        numComputedTokens with
    | (true, _, _) => none
    | (false, released, clock) =>
        match StaleHit.pinGate scheduler.settings.staleHit released clock numComputedTokens with
        | (true, _, _) => none
        | (false, unpinned, _) =>
            some ((scheduler.freshLookup
              { (status.clearBlockIds.withStaleHit unpinned).updateOffloadKeys
                  scheduler.config with
                numLocallyComputedTokens := numComputedTokens }).map Prod.fst)

/-- A lookup that is made and that succeeds finds `numHitTokens`. -/
def ResolvesTo (scheduler : OffloadingConnectorScheduler M) (reqId : ReqId)
    (numComputedTokens numHitTokens : Nat) : Prop :=
  ∀ found, performedLookup scheduler reqId numComputedTokens = some (.ok found) →
    found = some numHitTokens

/-- What a call leaves behind, against one step of the ladder. -/
structure Follows (reqId : ReqId) (numHitTokens : Nat)
    (scheduler : OffloadingConnectorScheduler M)
    (answer : OffloadingConnectorScheduler.Matched) (after : OffloadingConnectorScheduler M)
    (step : Bool × StaleHit × Clock) : Prop where
  left : ∃ status, after.reqStatus.get? reqId = some status ∧ status.staleHit = step.2.1
  clock : after.clock = step.2.2
  answer : answer = if step.1 = true then OffloadingConnectorScheduler.Matched.zero
    else (some numHitTokens, decide (0 < numHitTokens))
  settings : after.settings = scheduler.settings

omit [OffloadingManager M] in
theorem follows_set {start : OffloadingConnectorScheduler M} {status : RequestOffloadState}
    (same : scheduler.settings = start.settings) (staleHit : StaleHit) (clock : Clock) :
    Follows reqId numHitTokens start OffloadingConnectorScheduler.Matched.zero
      ((scheduler.withClock clock).setStatus reqId (status.withStaleHit staleHit))
      (true, staleHit, clock) :=
  ⟨⟨_, (OrderedMap.get_set ..).trans (if_pos rfl), rfl⟩, rfl, rfl, same⟩

theorem answer_hit_follows {status : RequestOffloadState}
    (called : scheduler.answerHit reqId status numComputedTokens (some numHitTokens) =
      .ok (answer, after)) :
    Follows reqId numHitTokens scheduler answer after
      (ladderAnswer scheduler.settings.staleHit status.staleHit scheduler.clock
        numComputedTokens numHitTokens) := by
  unfold OffloadingConnectorScheduler.answerHit at called
  dsimp only at called
  unfold ladderAnswer
  cases claimed : StaleHit.claimGate scheduler.settings.staleHit status.staleHit scheduler.clock
      numComputedTokens (some numHitTokens) with
  | mk blocked rest =>
      cases blocked with
      | true =>
          simp only [claimed] at called ⊢
          cases called
          exact follows_set rfl _ _
      | false =>
          simp only [claimed] at called ⊢
          obtain ⟨manager, _, called⟩ := bind_eq_ok.mp called
          have same : (status.updateNumHitChunks scheduler.config
              (numComputedTokens + (some numHitTokens).getD 0)).staleHit = status.staleHit := rfl
          rw [same] at called
          cases climbed : StaleHit.climb scheduler.settings.staleHit status.staleHit
              scheduler.clock numComputedTokens (some numHitTokens) with
          | mk fallsBack rest =>
              simp only [climbed] at called
              split at called
              · rename_i zero
                cases called
                exact ⟨⟨_, (OrderedMap.get_set ..).trans (if_pos rfl), rfl⟩, rfl,
                  (if_pos zero).symm, rfl⟩
              · rename_i some
                cases called
                exact ⟨⟨_, (OrderedMap.get_set ..).trans (if_pos rfl), rfl⟩, rfl,
                  (if_neg some).symm, rfl⟩

theorem fresh_lookup_stale_hit {status : RequestOffloadState}
    {found : Option Nat × RequestOffloadState × M}
    (looked : scheduler.freshLookup status = .ok found) :
    found.2.1.staleHit = status.staleHit := by
  unfold OffloadingConnectorScheduler.freshLookup at looked
  split at looked
  · cases looked
    rfl
  · obtain ⟨⟨⟨numHit, boundary⟩, manager⟩, _, done⟩ := bind_eq_ok.mp looked
    cases done
    rfl

/-- A call that is not held back by a transfer is one step of the ladder. -/
theorem get_num_follows {status : RequestOffloadState}
    (tracked : scheduler.reqStatus.get? reqId = some status) (idle : status.transferJobs = [])
    (resolves : ResolvesTo scheduler reqId numComputedTokens numHitTokens)
    (called : scheduler.getNumNewMatchedTokens reqId numComputedTokens = .ok (answer, after)) :
    Follows reqId numHitTokens scheduler answer after
      (ladderCall scheduler.settings.staleHit status.staleHit scheduler.clock numComputedTokens
        numHitTokens) := by
  have free : ¬status.clearBlockIds.transferJobs ≠ [] := not_not_intro idle
  have same : status.clearBlockIds.staleHit = status.staleHit := rfl
  unfold OffloadingConnectorScheduler.getNumNewMatchedTokens
    OffloadingConnectorScheduler.statusOf at called
  rw [tracked, py_item_some, ok_bind] at called
  dsimp only at called
  rw [if_neg free, same] at called
  unfold ladderCall
  cases escaped : StaleHit.escapeGate scheduler.settings.staleHit status.staleHit scheduler.clock
      numComputedTokens with
  | mk answered rest =>
      obtain ⟨released, clock⟩ := rest
      cases answered with
      | true =>
          simp only [escaped] at called ⊢
          cases called
          exact follows_set rfl _ _
      | false =>
          simp only [escaped] at called ⊢
          cases pinned : StaleHit.pinGate scheduler.settings.staleHit released clock
              numComputedTokens with
          | mk answered rest =>
              obtain ⟨unpinned, later⟩ := rest
              cases answered with
              | true =>
                  simp only [pinned] at called ⊢
                  cases called
                  exact follows_set rfl _ _
              | false =>
                  simp only [pinned] at called ⊢
                  obtain ⟨⟨numHit, found, manager⟩, looked, called⟩ := bind_eq_ok.mp called
                  have made : performedLookup scheduler reqId numComputedTokens =
                      some (.ok numHit) := by
                    unfold performedLookup
                    rw [tracked, Option.bind_some]
                    simp only [escaped, pinned, looked]
                    rfl
                  obtain rfl : numHit = some numHitTokens := resolves numHit made
                  have kept : found.staleHit = unpinned := fresh_lookup_stale_hit looked
                  rw [← kept]
                  have step := answer_hit_follows called
                  exact ⟨step.left, step.clock, step.answer, step.settings⟩

end Calls

section Runs

variable {M : Type} [OffloadingManager M]

/-- What happens between two calls of the request: its ladder is left alone. -/
structure Elsewhere (reqId : ReqId) (scheduler after : OffloadingConnectorScheduler M) : Prop where
  settings : after.settings = scheduler.settings
  staleHit : (after.reqStatus.get? reqId).map RequestOffloadState.staleHit =
    (scheduler.reqStatus.get? reqId).map RequestOffloadState.staleHit

/-- A finished call: the clock before and after it, its answer, and whether the request is
in escape mode afterwards. -/
structure Call where
  started : Clock
  ended : Clock
  answer : OffloadingConnectorScheduler.Matched
  escaped : Bool

/-- The calls of a request from its arrival on, the last one first. -/
inductive LadderRun (reqId : ReqId) (numComputedTokens numHitTokens : Nat) :
    List Call → OffloadingConnectorScheduler M → Prop where
  | added (scheduler : OffloadingConnectorScheduler M) (req : Request)
      (arrived : req.requestId = reqId) :
      LadderRun reqId numComputedTokens numHitTokens [] (scheduler.onNewRequest req)
  | changed {calls : List Call} {scheduler after : OffloadingConnectorScheduler M}
      (run : LadderRun reqId numComputedTokens numHitTokens calls scheduler)
      (elsewhere : Elsewhere reqId scheduler after) :
      LadderRun reqId numComputedTokens numHitTokens calls after
  | called {calls : List Call} {scheduler after : OffloadingConnectorScheduler M}
      {answer : OffloadingConnectorScheduler.Matched}
      (run : LadderRun reqId numComputedTokens numHitTokens calls scheduler)
      (idle : ∀ status, scheduler.reqStatus.get? reqId = some status → status.transferJobs = [])
      (resolves : ResolvesTo scheduler reqId numComputedTokens numHitTokens)
      (called : scheduler.getNumNewMatchedTokens reqId numComputedTokens = .ok (answer, after))
      (close : ∀ last ∈ calls.head?, ∀ earlier, ReadIn last.started last.ended earlier →
        ∀ later, ReadIn scheduler.clock after.clock later →
          later - earlier < scheduler.settings.staleHit.staleHitRepeatWindow) :
      LadderRun reqId numComputedTokens numHitTokens
        (⟨scheduler.clock, after.clock, answer, after.isStaleHitEscape reqId⟩ :: calls) after

variable {reqId : ReqId} {numComputedTokens numHitTokens : Nat} {calls : List Call}
  {scheduler : OffloadingConnectorScheduler M}

/-- How often the hit was given. -/
def timesGiven (numHitTokens : Nat) (calls : List Call) : Nat :=
  calls.countP fun call => decide (call.answer = (some numHitTokens, true))

/-- The times read in the last call. -/
def lastRead (calls : List Call) (time : Rat) : Prop :=
  ∃ last ∈ calls.head?, ReadIn last.started last.ended time

/-- After an escape every call answers zero and the escape holds. -/
def EscapeHolds (calls : List Call) : Prop :=
  calls.Pairwise fun later earlier => earlier.escaped = true →
    later.answer = (some 0, false) ∧ later.escaped = true

structure RunInv (reqId : ReqId) (numComputedTokens numHitTokens : Nat) (calls : List Call)
    (scheduler : OffloadingConnectorScheduler M) (staleHit : StaleHit) : Prop where
  tracked : (scheduler.reqStatus.get? reqId).map RequestOffloadState.staleHit = some staleHit
  phase : Phase scheduler.settings.staleHit numComputedTokens numHitTokens
    (timesGiven numHitTokens calls) (lastRead calls) staleHit
  holds : EscapeHolds calls
  mode : (∃ call ∈ calls, call.escaped = true) → staleHit.escape = true

theorem phase_escaped {settings : StaleHitSettings} {given : Nat} {recent : Rat → Prop}
    {staleHit : StaleHit}
    (phase : Phase settings numComputedTokens numHitTokens given recent staleHit)
    (escape : staleHit.escape = true) : Escaped numComputedTokens staleHit := by
  cases phase with
  | fresh _ initial =>
      subst initial
      cases escape
  | climbing climbing =>
      rw [climbing.held] at escape
      cases escape
  | escaped _ escaped => exact escaped

theorem times_given_cons {zero : Bool} {call : Call} (positive : 0 < numHitTokens)
    (answer : call.answer = if zero = true then OffloadingConnectorScheduler.Matched.zero
      else (some numHitTokens, decide (0 < numHitTokens))) :
    timesGiven numHitTokens (call :: calls) = timesGiven numHitTokens calls + (!zero).toNat := by
  unfold timesGiven
  rw [List.countP_cons, answer]
  cases zero with
  | true => simp [OffloadingConnectorScheduler.Matched.zero]
  | false => simp [positive]

theorem run_inv (positive : 0 < numHitTokens)
    (run : LadderRun reqId numComputedTokens numHitTokens calls scheduler)
    (limit : 0 < scheduler.settings.staleHit.staleHitFallbackLimit)
    (budget : scheduler.settings.staleHit.staleHitMaxLookups ≠ 0)
    (refusal : 0 < scheduler.settings.staleHit.escapeRefusalSecs) :
    ∃ staleHit, RunInv reqId numComputedTokens numHitTokens calls scheduler staleHit := by
  induction run with
  | added scheduler req arrived =>
      refine ⟨{}, ?_, .fresh rfl rfl, List.Pairwise.nil, by simp⟩
      subst arrived
      exact congrArg _ ((OrderedMap.get_set ..).trans (if_pos rfl))
  | changed run elsewhere ih =>
      rw [elsewhere.settings] at limit budget refusal
      obtain ⟨staleHit, inv⟩ := ih limit budget refusal
      refine ⟨staleHit, elsewhere.staleHit.trans inv.tracked, ?_, inv.holds, inv.mode⟩
      rw [elsewhere.settings]
      exact inv.phase
  | @called calls scheduler after answer run idle resolves called close ih =>
      obtain ⟨status, found⟩ : ∃ status, scheduler.reqStatus.get? reqId = some status := by
        unfold OffloadingConnectorScheduler.getNumNewMatchedTokens at called
        obtain ⟨status, tracked, _⟩ := bind_eq_ok.mp called
        exact ⟨status, py_item_eq_ok.mp tracked⟩
      have step := get_num_follows found (idle status found) resolves called
      rw [step.settings] at limit budget refusal
      obtain ⟨staleHit, inv⟩ := ih limit budget refusal
      obtain rfl : status.staleHit = staleHit := by
        have tracked := inv.tracked
        rw [found] at tracked
        exact Option.some.inj tracked
      obtain ⟨left, leftFound, leftStaleHit⟩ := step.left
      have escape : after.isStaleHitEscape reqId = left.staleHit.escape := by
        unfold OffloadingConnectorScheduler.isStaleHitEscape
        rw [leftFound]
        rfl
      -- an escape seen by an earlier call is still on, so this call was answered by the gate
      have stays : (∃ call ∈ calls, call.escaped = true) →
          answer = (some 0, false) ∧ left.staleHit.escape = true := by
        intro seen
        obtain ⟨answered, kept⟩ := @escaped_call scheduler.settings.staleHit status.staleHit
          scheduler.clock numComputedTokens numHitTokens
          (phase_escaped inv.phase (inv.mode seen))
        rw [step.answer, if_pos answered, leftStaleHit]
        exact ⟨rfl, kept.escape⟩
      refine ⟨left.staleHit, by rw [leftFound]; rfl, ?_, ?_, ?_⟩
      · have keeps := @call_keeps _ _ scheduler.clock numComputedTokens numHitTokens _
          (lastRead calls) positive limit budget refusal _ _ after.clock
          (Prod.ext rfl (Prod.ext leftStaleHit.symm step.clock.symm)) ?_ inv.phase
        · rw [step.settings, times_given_cons positive step.answer]
          apply keeps.mono
          intro time read
          exact ⟨_, rfl, read⟩
        · rintro earlier ⟨last, member, read⟩
          exact close last member earlier read
      · refine List.Pairwise.cons ?_ inv.holds
        intro call member escaped
        rw [escape]
        exact stays ⟨call, member, escaped⟩
      · rintro ⟨call, member, escaped⟩
        rcases List.mem_cons.mp member with rfl | earlier
        · exact escape.symm.trans escaped
        · exact (stays ⟨call, earlier, escaped⟩).2

/-- The hit is given at most `limit * budget` times, and an escape holds for all later
calls of the same boundary. -/
theorem stale_hit_bounded (positive : 0 < numHitTokens)
    (run : LadderRun reqId numComputedTokens numHitTokens calls scheduler)
    (budget : 1 ≤ scheduler.settings.staleHit.staleHitMaxLookups)
    (limit : 1 ≤ scheduler.settings.staleHit.staleHitFallbackLimit)
    (refusal : 0 < scheduler.settings.staleHit.escapeRefusalSecs) :
    timesGiven numHitTokens calls ≤ scheduler.settings.staleHit.staleHitFallbackLimit *
        scheduler.settings.staleHit.staleHitMaxLookups ∧
      EscapeHolds calls ∧
      ((∃ call ∈ calls, call.escaped = true) → scheduler.isStaleHitEscape reqId = true) := by
  obtain ⟨staleHit, inv⟩ := run_inv positive run limit (Nat.ne_of_gt budget) refusal
  refine ⟨?_, inv.holds, ?_⟩
  · cases inv.phase with
    | fresh nothing _ =>
        rw [nothing]
        exact Nat.zero_le _
    | escaped bounded _ => exact bounded
    | climbing climbing =>
        have cycles := Nat.mul_le_mul_right scheduler.settings.staleHit.staleHitMaxLookups
          climbing.fallbacks
        rw [Nat.succ_mul] at cycles
        rcases climbing.cycle with ⟨_, few⟩ | ⟨_, _, below, few⟩
        · omega
        · omega
  · intro seen
    obtain ⟨status, found, same⟩ := Option.map_eq_some_iff.mp inv.tracked
    unfold OffloadingConnectorScheduler.isStaleHitEscape
    rw [found, Option.any_some, same]
    exact inv.mode seen

end Runs

section Escape

open KvOffload.CpuManager KvOffload.LruPolicy KvOffload.LoadTransfer

/-- One repeat is enough to escape. -/
def hastySettings : ConnectorSettings where
  staleHit := { staleHitMaxLookups := 1, staleHitFallbackLimit := 1 }

def pairRequest : Request := ⟨0, 9, 9, 0, [[0], [1], [2], [3]], .unfinished, false, .all, none⟩

def arrived : OffloadingConnectorScheduler (CPUOffloadingManager LRUCachePolicy) :=
  (OffloadingConnectorScheduler.new pairConfig hastySettings none pairManager
    ⟨fun _ => 0, 0⟩).onNewRequest pairRequest

/-- Between the two calls the clock went on. -/
def repeated : OffloadingConnectorScheduler (CPUOffloadingManager LRUCachePolicy) :=
  (arrived.withClock ⟨fun _ => 0, 7⟩).setStatus 0
    ((RequestOffloadState.new pairRequest (createReqContext pairRequest) .blockLevel).withStaleHit
      { lastHitTokens := some 8, lastNumComputed := 0 })

theorem second_call_escapes : ∃ calls,
    ∃ scheduler : OffloadingConnectorScheduler (CPUOffloadingManager LRUCachePolicy),
      LadderRun 0 0 8 calls scheduler ∧ calls.map Call.answer = [(some 0, false), (some 8, true)] ∧
        timesGiven 8 calls ≤ 1 * 1 ∧ scheduler.isStaleHitEscape 0 = true := by
  have looked : performedLookup arrived 0 0 = some (.ok (some 8)) := by decide +kernel
  have again : performedLookup repeated 0 0 = some (.ok (some 8)) := by decide +kernel
  have gave : (arrived.getNumNewMatchedTokens 0 0).map (fun result =>
      (result.1, (result.2.reqStatus.get? 0).map RequestOffloadState.staleHit)) =
        .ok ((some 8, true), some { lastHitTokens := some 8, lastNumComputed := 0 }) := by
    decide +kernel
  have fell : (repeated.getNumNewMatchedTokens 0 0).map (fun result =>
      (result.1, result.2.isStaleHitEscape 0)) = .ok ((some 0, false), true) := by
    decide +kernel
  obtain ⟨⟨answer, first⟩, gave, seen⟩ := map_eq_ok.mp gave
  obtain ⟨⟨fallback, second⟩, fell, escaped⟩ := map_eq_ok.mp fell
  simp only [Prod.mk.injEq] at seen escaped
  have idle : ∀ status, arrived.reqStatus.get? 0 = some status → status.transferJobs = [] := by
    intro status tracked
    cases tracked
    rfl
  have idleAgain : ∀ status, repeated.reqStatus.get? 0 = some status →
      status.transferJobs = [] := by
    intro status tracked
    cases tracked
    rfl
  have resolves : ResolvesTo arrived 0 0 8 := by
    intro found made
    rw [looked] at made
    cases made
    rfl
  have resolvesAgain : ResolvesTo repeated 0 0 8 := by
    intro found made
    rw [again] at made
    cases made
    rfl
  have follows := get_num_follows rfl (idle _ rfl) resolves gave
  have followsAgain := get_num_follows rfl (idleAgain _ rfl) resolvesAgain fell
  have one : LadderRun 0 0 8 _ first :=
    .called (.added _ pairRequest rfl) idle resolves gave (by simp)
  have elsewhere : Elsewhere 0 first repeated := by
    refine ⟨follows.settings.symm, ?_⟩
    rw [seen.2]
    rfl
  have two := LadderRun.called (one.changed elsewhere) idleAgain resolvesAgain fell (by
    rintro last member earlier ⟨_, _, _, rfl⟩ later ⟨_, _, _, rfl⟩
    cases member
    show (0 : Rat) - 0 < 300
    norm_num)
  have settings : second.settings = hastySettings := followsAgain.settings
  obtain ⟨few, _, holds⟩ := stale_hit_bounded (by decide) two (by rw [settings]; decide)
    (by rw [settings]; decide) (by rw [settings]; decide)
  rw [settings] at few
  refine ⟨_, second, two, ?_, few, holds ⟨_, List.mem_cons_self, escaped.2⟩⟩
  rw [List.map_cons, List.map_cons, seen.1, escaped.1]
  rfl

end Escape

end KvOffload.StaleHitRuns
