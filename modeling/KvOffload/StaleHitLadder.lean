import KvOffload.ConnectorRequests

/-!
# Stale-hit ladder

What bounds identical lookups of a request that bring no progress: after a budget
of repeats the connector answers zero and pins the request for a cooldown, after
enough fallbacks it escapes until the boundary changes, and an escape wall releases
an escape that has held too long. Each gate either answers `(0, False)` or lets the
call go on. Times are rational numbers read from a stream.
-/

namespace KvOffload.StaleHitLadder

open KvOffload KvOffload.Base KvOffload.ConnectorRequests

set_option autoImplicit false

/-- The monotonic clock: the next reading is the one at `reads`. -/
structure Clock where
  readings : Nat → Rat
  reads : Nat := 0

def Clock.now (clock : Clock) : Rat := clock.readings clock.reads

def Clock.tick (clock : Clock) : Clock := { clock with reads := clock.reads + 1 }

/-- The settings the constructor reads from the environment, zero where a stage is
disabled. -/
structure StaleHitSettings where
  staleHitMaxLookups : Nat := 8
  staleHitPinSeconds : Rat := 10
  staleHitRepeatWindow : Rat := 300
  escapeWallSecs : Rat := 240
  escapeRefusalSecs : Rat := 60
  staleHitFallbackLimit : Nat := 3
  staleHitTtlSecs : Rat := 150

namespace StaleHit

variable (settings : StaleHitSettings) (staleHit : StaleHit) (clock : Clock)
  (numComputedTokens : Nat)

/-- The release of the escape wall, which keeps the claim. -/
def rearm : StaleHit :=
  { staleHit with
    escape := false
    streak := 0
    repeatCount := 0
    fallbackCount := 0
    wallStart := 0
    escapeRefusalUntil := 0
    escapeRefusalNotified := false }

def dropClaim : StaleHit :=
  { staleHit with
    escapeClaimActive := false
    escapeClaimHitTokens := -1
    escapeClaimNumComputed := -1 }

/-- The escape has held for the whole wall: the refusal window and a claim keep it. -/
def escapeWall : Bool × StaleHit × Clock :=
  let refusing := decide (0 < settings.escapeRefusalSecs)
  let refused := refusing && decide (clock.now < staleHit.escapeRefusalUntil)
  let clock := if refusing then clock.tick else clock
  if refused then (true, { staleHit with escapeRefusalNotified := true }, clock)
  else if staleHit.escapeClaimActive then
    (true, { staleHit with
      wallStart := clock.now
      escapeRefusalUntil := clock.now + settings.escapeWallSecs
      escapeRefusalNotified := true }, clock.tick)
  else (false, rearm staleHit, clock)

/-- The flag says whether the call answers zero here. -/
def escapeGate : Bool × StaleHit × Clock :=
  if staleHit.escape = false then (false, staleHit, clock)
  else if numComputedTokens ≠ staleHit.lastNumComputed then
    (false, dropClaim (rearm staleHit), clock)
  else
    let timed := decide (0 < staleHit.wallStart)
    let hold := if timed then clock.now - staleHit.wallStart else 0
    let clock := if timed then clock.tick else clock
    if 0 < settings.escapeWallSecs ∧ settings.escapeWallSecs ≤ hold then
      escapeWall settings staleHit clock
    else (true, staleHit, clock)

/-- A pin ends when its deadline passes or the request has made progress. -/
def pinGate : Bool × StaleHit × Clock :=
  if settings.staleHitPinSeconds ≤ 0 ∨ staleHit.pinnedUntil = 0 then (false, staleHit, clock)
  else if staleHit.pinnedUntil ≤ clock.now ∨
      numComputedTokens ≠ staleHit.lastNumComputed then
    (false, { staleHit with pinnedUntil := 0 }, clock.tick)
  else (true, staleHit, clock.tick)

/-- A hit equal to the claim that made the request escape is answered as a miss. -/
def claimGate (numHitTokens : Option Nat) : Bool × StaleHit × Clock :=
  if 0 < numHitTokens.getD 0 ∧ 0 < settings.escapeRefusalSecs ∧
      staleHit.escapeClaimActive = true ∧
      numHitTokens.map Int.ofNat = some staleHit.escapeClaimHitTokens ∧
      numComputedTokens = staleHit.escapeClaimNumComputed then
    let anchoring := !staleHit.escape && decide (staleHit.wallStart ≤ 0)
    let wallStart := if anchoring then clock.now else staleHit.wallStart
    let clock := if anchoring then clock.tick else clock
    (true, { staleHit with
      escape := true
      wallStart := wallStart
      lastHitTokens := some 0
      lastNumComputed := numComputedTokens
      lastTs := clock.now }, clock.tick)
  else (false, staleHit, clock)

/-- The budget of repeats is used up: escape, or pin for a cooldown. -/
def fallback (now : Rat) (numHitTokens : Nat) : StaleHit × Clock :=
  let fallbackCount := staleHit.fallbackCount + 1
  let pathWall := if 0 < staleHit.wallStart then now - staleHit.wallStart else 0
  let forceEscape :=
    (0 < settings.staleHitFallbackLimit ∧ settings.staleHitFallbackLimit ≤ fallbackCount) ∨
      (0 < settings.staleHitTtlSecs ∧ 0 < staleHit.wallStart ∧
        settings.staleHitTtlSecs ≤ pathWall)
  let fallen := { staleHit with streak := 0, fallbackCount := fallbackCount }
  if forceEscape then
    let escaped := { fallen with escape := true, pinnedUntil := 0, fallbackCount := 0 }
    if 0 < settings.escapeRefusalSecs then
      ({ escaped with
        escapeRefusalUntil := now + settings.escapeRefusalSecs
        escapeRefusalNotified := false
        escapeClaimActive := true
        escapeClaimHitTokens := numHitTokens
        escapeClaimNumComputed := numComputedTokens }, clock)
    else (escaped, clock)
  else if 0 < settings.staleHitPinSeconds then
    ({ fallen with pinnedUntil := clock.now + settings.staleHitPinSeconds }, clock.tick)
  else (fallen, clock)

def remember (now : Rat) (numHitTokens : Option Nat) : StaleHit :=
  { staleHit with
    lastHitTokens := numHitTokens.map Int.ofNat
    lastNumComputed := numComputedTokens
    lastTs := now }

/-- A lookup that differs from the last one starts over, unless it repeats the claim. -/
def startOver (numHitTokens : Option Nat) : StaleHit :=
  let restarted := rearm staleHit
  if numHitTokens.map Int.ofNat ≠ some staleHit.escapeClaimHitTokens ∨
      numComputedTokens ≠ staleHit.escapeClaimNumComputed then
    dropClaim restarted
  else restarted

/-- The ladder after a lookup: the flag says whether the call falls back to zero. -/
def climb (numHitTokens : Option Nat) : Bool × StaleHit × Clock :=
  let now := clock.now
  let clock := clock.tick
  if 0 < numHitTokens.getD 0 ∧ settings.staleHitMaxLookups ≠ 0 ∧
      numHitTokens.map Int.ofNat = staleHit.lastHitTokens ∧
      numComputedTokens = staleHit.lastNumComputed then
    let anchored :=
      { staleHit with wallStart := if staleHit.wallStart ≤ 0 then now else staleHit.wallStart }
    if now - staleHit.lastTs < settings.staleHitRepeatWindow then
      let repeated := { anchored with
        streak := anchored.streak + 1, repeatCount := anchored.repeatCount + 1 }
      if settings.staleHitMaxLookups ≤ repeated.streak then
        (true, fallback settings repeated clock numComputedTokens now (numHitTokens.getD 0))
      else (false, remember repeated numComputedTokens now numHitTokens, clock)
    else (false, remember { anchored with streak := 0 } numComputedTokens now numHitTokens, clock)
  else
    (false, remember (startOver staleHit numComputedTokens numHitTokens) numComputedTokens now
      numHitTokens, clock)

end StaleHit

end KvOffload.StaleHitLadder
