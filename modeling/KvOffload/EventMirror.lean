import KvOffload.ArcRepresentation
import KvOffload.LruRecency

/-!
# The event stream mirrors the pool

Replaying every event a manager emitted gives the keys that are ready. Reservations
and failed stores emit nothing and make nothing ready; a reset names every stored key,
ready or not, in chunks.
-/

namespace KvOffload.EventMirror

open KvOffload KvOffload.Base KvOffload.PolicyInterface KvOffload.CpuManager
open KvOffload.CpuManagerSpec KvOffload.PolicyMoves KvOffload.CpuManagerMoves
open KvOffload.EventRuns KvOffload.CpuHistories

set_option autoImplicit false

theorem flatten_chunks_go {α : Type} (size : Nat) (rest : List α) (chunk : Array α)
    (chunks : Array (List α)) :
    (List.toChunks.go size rest chunk chunks).flatten =
      chunks.toList.flatten ++ chunk.toList ++ rest := by
  induction rest generalizing chunk chunks with
  | nil => simp [List.toChunks.go]
  | cons item rest ih =>
      unfold List.toChunks.go
      split <;> rw [ih] <;> simp

/-- Chunking loses nothing. -/
theorem flatten_chunks {α : Type} (size : Nat) (items : List α) :
    (items.toChunks size).flatten = items := by
  unfold List.toChunks
  split
  · rfl
  · simp
  · rw [flatten_chunks_go]
    simp

theorem reset_events_emitted {P : Type} (removed : List OffloadKey)
    (manager : CPUOffloadingManager P) :
    (manager.resetEvents removed).events = manager.events.map fun events => events ++
      (removed.toChunks 65536).map fun chunk => ⟨chunk, manager.medium, true⟩ := by
  unfold CPUOffloadingManager.resetEvents
  induction removed.toChunks 65536 generalizing manager with
  | nil => exact events_of_eq
  | cons chunk rest ih =>
      obtain ⟨events, medium⟩ := emit_events manager chunk true
      rw [List.foldl_cons, ih, events, medium]
      cases manager.events <;> simp

theorem removals_replay (chunks : List (List OffloadKey)) (medium : Medium)
    (stored : Finset OffloadKey) (key : OffloadKey) :
    key ∈ (chunks.map fun chunk => (⟨chunk, medium, true⟩ : OffloadingEvent)).foldl
        replayEvent stored ↔ key ∈ stored ∧ key ∉ chunks.flatten := by
  induction chunks generalizing stored with
  | nil => simp
  | cons chunk rest ih =>
      rw [List.map_cons, List.foldl_cons, ih]
      simp [replayEvent, and_assoc]

section Runs

variable {P : Type} [CachePolicy P] [LawfulCachePolicy P] [TrackedPolicy P]

open TrackedPolicy

structure MirrorInv (history : CpuHistory P) : Prop where
  tracked : Tracked history.manager.policy
  enabled : history.manager.events.isSome
  agrees : ∀ key, key ∈ replayEvents history.emitted ↔ Ready history.manager.policy key

variable {history after : CpuHistory P}

theorem call_keeps_mirror (inv : MirrorInv history) {event : CpuEvent} (plain : Plain event)
    (applied : history.apply event = .ok after) : MirrorInv after := by
  obtain ⟨taken, moves, emitted, performed, mirrors⟩ := apply_call plain inv.tracked applied
  obtain ⟨events, listed⟩ := Option.isSome_iff_exists.mp inv.enabled
  have listedAfter : after.manager.events = some (events ++ emitted) := by
    rw [performed.events, listed, Option.map_some]
  constructor
  · exact tracked_moves inv.tracked performed.policy
  · rw [listedAfter, Option.isSome_some]
  · intro key
    rw [CpuHistory.emitted, taken, listedAfter, Option.getD_some, ← List.append_assoc,
      replayEvents, List.foldl_append]
    apply mirrors
    intro other
    have agrees := inv.agrees other
    rwa [CpuHistory.emitted, listed, Option.getD_some] at agrees

theorem reset_keeps_mirror (inv : MirrorInv history)
    (applied : history.apply .resetCache = .ok after) : MirrorInv after := by
  cases applied
  obtain ⟨events, listed⟩ := Option.isSome_iff_exists.mp inv.enabled
  generalize removed_eq : CachePolicy.storedKeys history.manager.policy = removed
  have listedAfter : history.manager.resetCache.events = some (events ++
      (removed.toChunks 65536).map fun chunk => ⟨chunk, history.manager.medium, true⟩) := by
    show (history.manager.resetEvents _).events = _
    rw [reset_events_emitted, listed, removed_eq, Option.map_some]
  have cleared : ∀ key, CachePolicy.get history.manager.resetCache.policy key = none :=
    fun key => LawfulCachePolicy.get_clear _ key
  constructor
  · exact tracked_clear _
  · show history.manager.resetCache.events.isSome
    rw [listedAfter, Option.isSome_some]
  · intro key
    have emitted_eq : (history.called history.manager.resetCache []).emitted =
        history.emitted ++
          (removed.toChunks 65536).map fun chunk => ⟨chunk, history.manager.medium, true⟩ := by
      simp only [CpuHistory.emitted, CpuHistory.called, listedAfter, listed, Option.getD_some,
        List.append_assoc]
    rw [emitted_eq, replayEvents, List.foldl_append, removals_replay, flatten_chunks]
    constructor
    · rintro ⟨live, unnamed⟩
      obtain ⟨block, stored, _⟩ := (inv.agrees key).mp live
      rw [← removed_eq, LawfulCachePolicy.mem_stored (lawful inv.tracked), stored] at unnamed
      exact absurd rfl unnamed
    · rintro ⟨block, stored, _⟩
      cases (cleared key).symm.trans stored

theorem drain_keeps_mirror (inv : MirrorInv history)
    (applied : history.apply .takeEvents = .ok after) : MirrorInv after := by
  obtain ⟨events, listed⟩ := Option.isSome_iff_exists.mp inv.enabled
  have drained : history.manager.takeEvents =
      (events, { history.manager with events := some [] }) := by
    unfold CPUOffloadingManager.takeEvents
    rw [listed]
  simp only [CpuHistory.apply, drained] at applied
  cases applied
  constructor
  · exact inv.tracked
  · rfl
  · intro key
    have agrees := inv.agrees key
    rw [CpuHistory.emitted, listed, Option.getD_some] at agrees
    simpa [CpuHistory.emitted] using agrees

theorem apply_keeps_mirror (inv : MirrorInv history) {event : CpuEvent}
    (applied : history.apply event = .ok after) : MirrorInv after := by
  by_cases plain : Plain event
  · exact call_keeps_mirror inv plain applied
  · cases event with
    | resetCache => exact reset_keeps_mirror inv applied
    | takeEvents => exact drain_keeps_mirror inv applied
    | _ => exact absurd trivial plain

theorem start_mirrors (params : CpuManagerParams) {policy : P} (tracked : Tracked policy)
    (empty : ∀ key, CachePolicy.get policy key = none) (enabled : params.enableEvents = true) :
    MirrorInv (CpuHistory.start params policy) := by
  constructor
  · exact tracked
  · simp [CpuHistory.start, CPUOffloadingManager.new, enabled]
  · intro key
    simp [CpuHistory.emitted, CpuHistory.start, CPUOffloadingManager.new, enabled, replayEvents,
      Ready, empty]

theorem reached_mirrors (params : CpuManagerParams) {policy : P} (tracked : Tracked policy)
    (empty : ∀ key, CachePolicy.get policy key = none) (enabled : params.enableEvents = true)
    (reached : CpuHistory.Reached params policy history) : MirrorInv history :=
  reaches_invariant (fun _ _ _ inv _ applied => apply_keeps_mirror inv applied)
    (start_mirrors params tracked empty enabled) reached

end Runs

/-- Replaying all events of the history gives its ready keys. -/
def Mirrored {P : Type} [CachePolicy P] (history : CpuHistory P) : Prop :=
  ∀ key, key ∈ replayEvents history.emitted ↔
    ∃ block, history.manager.get key = some block ∧ 0 ≤ block.refCnt

/-- With events enabled, the events of every history with either policy mirror its
ready keys. -/
theorem lru_and_arc_mirrored {params : CpuManagerParams} (enabled : params.enableEvents = true)
    (cacheCapacity : Nat) (rounding : FloatRounding.Rounding) :
    (∀ history, CpuHistory.Reached params (LruPolicy.LRUCachePolicy.new cacheCapacity) history →
        Mirrored history) ∧
      ∀ history, CpuHistory.Reached params (ArcPolicy.ARCCachePolicy.new cacheCapacity rounding) history →
        Mirrored history := by
  constructor
  · intro history reached
    apply (reached_mirrors params _ _ enabled reached).agrees
    · simp [TrackedPolicy.Tracked, LruPolicy.EvictableIffIdle, LruPolicy.LRUCachePolicy.new]
    · exact fun _ => rfl
  · intro history reached
    apply (reached_mirrors params _ _ enabled reached).agrees
    · exact ArcRepresentation.new_inv cacheCapacity rounding
    · exact fun _ => rfl

/-- One key was evicted after the events were taken, one is pending. -/
theorem mirrored_after_eviction :
    ∃ history : CpuHistory LruPolicy.LRUCachePolicy,
      history.taken.length = 1 ∧ replayEvents history.emitted = {⟨[8], 0⟩} ∧
        Mirrored history := by
  have replayed : (EventRuns.replay CpuHistory.apply (fun _ _ => True)
      (CpuHistory.start { numBlocks := 2, enableEvents := true } (LruPolicy.LRUCachePolicy.new 2))
      [.prepareStore [⟨[7], 0⟩, ⟨[8], 0⟩] false, .completeStore [⟨[7], 0⟩, ⟨[8], 0⟩] true,
        .takeEvents, .prepareStore [⟨[9], 0⟩] false]).map
      (fun history => (history.taken.length, replayEvents history.emitted)) =
        some (1, {⟨[8], 0⟩}) := by
    decide +kernel
  obtain ⟨history, reached, seen⟩ := EventRuns.exists_of_replay replayed
  obtain ⟨taken, live⟩ := Prod.mk.inj seen
  exact ⟨history, taken, live,
    (@lru_and_arc_mirrored { numBlocks := 2, enableEvents := true } rfl 2 .exact).1 history reached⟩

end KvOffload.EventMirror
