import KvOffload.CpuHistories
import KvOffload.LruPolicy

/-!
# LRU evicts by last use

In every history the evictable list is sorted by the time of the last use, so the
victims of a store are the least recently used keys that it may evict.
-/

namespace KvOffload.LruRecency

open KvOffload KvOffload.Base KvOffload.PolicyInterface KvOffload.CpuManager
open KvOffload.LruPolicy KvOffload.CpuPool KvOffload.CpuManagerSpec KvOffload.PolicyMoves
open KvOffload.CpuManagerMoves KvOffload.EventRuns KvOffload.CpuHistories

set_option autoImplicit false

/-- A key entered twice is pending both times, so it never was evictable. -/
theorem reserve_inv {policy : LRUCachePolicy} {key : OffloadKey} (blockId : Nat)
    (inv : EvictableIffIdle policy)
    (unready : ∀ block, policy.blocks.get? key = some block → block.refCnt < 0) :
    EvictableIffIdle (policy.insert key (BlockStatus.new blockId)) := by
  intro other
  simp only [LRUCachePolicy.insert, new_ref_cnt, OrderedMap.get_set]
  by_cases same : other = key
  · subst same
    have busy : other ∉ policy.evictableBlocks.keys := by
      rw [inv other]
      rintro ⟨block, stored, zero⟩
      have := unready block stored
      omega
    simpa using busy
  · simpa [same] using inv other

instance : TrackedPolicy LRUCachePolicy where
  Tracked := EvictableIffIdle
  lawful := id
  tracked_clear := LawfulCachePolicy.inv_clear
  tracked_moved {policy after move} inv moved := by
    have lawful : LawfulCachePolicy.Inv policy := inv
    cases moved with
    | touch keys => exact LawfulCachePolicy.inv_touch lawful keys
    | reserve blockId unready => exact reserve_inv blockId inv unready
    | @evict _ count guarded victims evicted =>
        rcases lru_evict_ok inv count guarded with failed | ⟨_, _, succeeded, left, _⟩
        · cases evicted.symm.trans failed
        · cases evicted.symm.trans succeeded
          exact left
    | discard stored pending removed =>
        obtain ⟨_, succeeded, left, _⟩ := LawfulCachePolicy.remove_ok lawful stored
        cases removed.symm.trans succeeded
        exact left
    | pin stored idle marked =>
        obtain ⟨_, succeeded, left, _⟩ := LawfulCachePolicy.pin_ok lawful stored idle
        cases marked.symm.trans succeeded
        exact left
    | recount stored held stillHeld => exact recount_inv inv stored held.ne' stillHeld.ne'
    | release stored busy => exact release_inv inv stored
  get_reserve blockId _ _ other := OrderedMap.get_set _ _ other (BlockStatus.new blockId)

def Sorted (log : UseLog) (keys : List OffloadKey) : Prop :=
  keys.Pairwise fun earlier later => log.lastUse earlier < log.lastUse later

/-- The evictable list is in the order of last use. -/
structure Recency (policy : LRUCachePolicy) (log : UseLog) : Prop where
  evictable : EvictableIffIdle policy
  sorted : Sorted log policy.evictableBlocks.keys
  past : ∀ key, log.lastUse key ≤ log.now

theorem past_note {log : UseLog} (past : ∀ key, log.lastUse key ≤ log.now) (used : OffloadKey) :
    ∀ key, (log.note used).lastUse key ≤ (log.note used).now := by
  intro key
  have := past key
  simp only [UseLog.note]
  split <;> omega

/-- The key that is used goes to the end. -/
theorem sorted_note {log : UseLog} {keys : List OffloadKey} {key : OffloadKey}
    (sorted : Sorted log keys) (past : ∀ key, log.lastUse key ≤ log.now) (absent : key ∉ keys) :
    Sorted (log.note key) (keys ++ [key]) := by
  unfold Sorted
  rw [List.pairwise_append]
  refine ⟨?_, List.pairwise_singleton _ _, ?_⟩
  · apply List.Pairwise.imp_of_mem _ sorted
    intro earlier later earlierMem laterMem before
    have earlierNe : earlier ≠ key := fun same => absent (same ▸ earlierMem)
    have laterNe : later ≠ key := fun same => absent (same ▸ laterMem)
    simpa [UseLog.note, earlierNe, laterNe] using before
  · intro earlier earlierMem later laterMem
    obtain rfl := List.mem_singleton.mp laterMem
    have earlierNe : earlier ≠ later := fun same => absent (same ▸ earlierMem)
    have := past earlier
    simp only [UseLog.note, earlierNe, if_false, if_true]
    omega

theorem sorted_sublist {log : UseLog} {keys fewer : List OffloadKey} (sorted : Sorted log keys)
    (sublist : fewer.Sublist keys) : Sorted log fewer := sorted.sublist sublist

section Touch

variable {policy : LRUCachePolicy} {log : UseLog}

theorem touch_key_keys (key : OffloadKey) :
    (policy.touchKey key).evictableBlocks.keys =
      if key ∈ policy.evictableBlocks.keys then
        (policy.evictableBlocks.keys.filter fun other => other ≠ key) ++ [key]
      else policy.evictableBlocks.keys := by
  unfold LRUCachePolicy.touchKey OrderedMap.contains
  simp only [← OrderedMap.mem_keys_iff]
  split
  · rename_i present
    exact OrderedMap.keys_move_to_end_of_present _ present
  · rfl

theorem touch_key_recency (recency : Recency policy log) (key : OffloadKey) :
    Recency (policy.touchKey key)
      (if key ∈ policy.evictableBlocks.keys then log.note key else log) := by
  have evictable : EvictableIffIdle (policy.touchKey key) := by
    intro other
    rw [mem_touch_key_evictable, touch_key_blocks]
    exact recency.evictable other
  have keys_eq := @touch_key_keys policy key
  split at keys_eq
  · rename_i listed
    rw [if_pos listed]
    refine ⟨evictable, ?_, past_note recency.past key⟩
    rw [keys_eq]
    exact sorted_note (sorted_sublist recency.sorted List.filter_sublist) recency.past (by simp)
  · rename_i unlisted
    rw [if_neg unlisted]
    exact ⟨evictable, keys_eq ▸ recency.sorted, recency.past⟩

/-- Keys touched while idle are used in the order of the walk. -/
theorem touch_keys_recency (idle : OffloadKey → Bool) (walk : List OffloadKey)
    {policy : LRUCachePolicy} {log : UseLog}
    (recency : Recency policy log)
    (listed : ∀ key, idle key = true ↔ key ∈ policy.evictableBlocks.keys) :
    Recency (walk.foldl LRUCachePolicy.touchKey policy) (log.noteAll (walk.filter idle)) := by
  induction walk generalizing policy log with
  | nil => exact recency
  | cons key rest ih =>
      have first := touch_key_recency recency key
      have later := ih first (fun other => by rw [mem_touch_key_evictable]; exact listed other)
      rw [List.foldl_cons]
      by_cases isIdle : idle key = true
      · rw [List.filter_cons_of_pos isIdle]
        rwa [if_pos ((listed key).mp isIdle)] at later
      · rw [List.filter_cons_of_neg isIdle]
        rwa [if_neg (mt (listed key).mpr isIdle)] at later

end Touch

section Moves

variable {policy after : LRUCachePolicy} {log : UseLog}

theorem drop_victims_keys (victims : Victims) (policy : LRUCachePolicy) :
    (victims.foldl LRUCachePolicy.dropVictim policy).evictableBlocks.keys.Sublist
      policy.evictableBlocks.keys := by
  induction victims generalizing policy with
  | nil => exact .refl _
  | cons victim rest ih =>
      apply (ih (policy.dropVictim victim)).trans
      simp only [LRUCachePolicy.dropVictim, OrderedMap.keys_erase]
      exact List.filter_sublist

theorem evict_keys {count : Nat} {guarded : List OffloadKey} {victims : Victims}
    (evicted : policy.evict count guarded = .ok (some (victims, after))) :
    after.evictableBlocks.keys.Sublist policy.evictableBlocks.keys := by
  unfold LRUCachePolicy.evict at evicted
  split at evicted
  · cases evicted
    exact .refl _
  · obtain ⟨found, _, evicted⟩ := bind_eq_ok.mp evicted
    split at evicted
    · cases evicted
    · cases evicted
      exact drop_victims_keys victims policy

def Touches : Move → Prop
  | .touch _ => True
  | _ => False

theorem moved_recency {move : Move} (recency : Recency policy log) (untouched : ¬Touches move)
    (moved : Moved policy move after) : Recency after (log.noteAll move.released) := by
  have inv : EvictableIffIdle after := TrackedPolicy.tracked_moved recency.evictable moved
  cases moved with
  | touch keys => exact absurd trivial untouched
  | reserve blockId unready => exact ⟨inv, recency.sorted, recency.past⟩
  | evict evicted =>
      exact ⟨inv, sorted_sublist recency.sorted (evict_keys evicted), recency.past⟩
  | @discard _ key block stored pending removed =>
      obtain ⟨_, _, done⟩ := bind_eq_ok.mp removed
      cases done
      refine ⟨inv, sorted_sublist recency.sorted ?_, recency.past⟩
      rw [OrderedMap.keys_erase]
      exact List.filter_sublist
  | @pin held key block stored idle marked =>
      obtain ⟨_, _, done⟩ := bind_eq_ok.mp marked
      cases done
      refine ⟨inv, sorted_sublist recency.sorted ?_, recency.past⟩
      show (policy.evictableBlocks.erase key).keys.Sublist _
      rw [OrderedMap.keys_erase]
      exact List.filter_sublist
  | recount stored held stillHeld => exact ⟨inv, recency.sorted, recency.past⟩
  | @release key block stored busy =>
      have absent : key ∉ policy.evictableBlocks.keys := by
        rw [recency.evictable key]
        rintro ⟨other, found, zero⟩
        cases found.symm.trans stored
        exact busy zero
      refine ⟨inv, ?_, past_note recency.past key⟩
      show Sorted _ (policy.evictableBlocks.set key ()).keys
      rw [OrderedMap.keys_set_of_fresh]
      · exact sorted_note recency.sorted recency.past absent
      · rw [OrderedMap.mem_keys_iff] at absent
        simpa using absent

theorem moves_recency {moves : List Move} {policy : LRUCachePolicy} {log : UseLog}
    (recency : Recency policy log) (untouched : ∀ move ∈ moves, ¬Touches move)
    (moved : Moves policy moves after) :
    Recency after (log.noteAll (moves.flatMap Move.released)) := by
  induction moves generalizing policy log with
  | nil =>
      obtain rfl := moved
      exact recency
  | cons move rest ih =>
      obtain ⟨middle, first, later⟩ := moved
      have step := moved_recency recency (untouched move List.mem_cons_self) first
      have rest := ih step (fun other member => untouched other (.tail _ member)) later
      rwa [UseLog.noteAll, UseLog.noteAll, ← List.foldl_append, ← List.flatMap_cons] at rest

end Moves

section Runs

variable {history after : CpuHistory LRUCachePolicy}

theorem idle_iff {manager : CPUOffloadingManager LRUCachePolicy}
    (inv : EvictableIffIdle manager.policy) (key : OffloadKey) :
    CpuHistory.idle manager key = true ↔ key ∈ manager.policy.evictableBlocks.keys := by
  rw [inv key, CpuHistory.idle, Option.any_eq_true]
  simp only [decide_eq_true_eq]
  rfl

structure HistoryInv (history : CpuHistory LRUCachePolicy) : Prop where
  recency : Recency history.manager.policy history.uses
  bounded : history.manager.numAllocatedBlocks ≤ history.manager.numBlocks

theorem performed_keeps_history (inv : HistoryInv history) {moves : List Move}
    {emitted : List OffloadingEvent} {manager : CPUOffloadingManager LRUCachePolicy}
    {used : List OffloadKey} (performed : Performed history.manager moves emitted manager)
    (untouched : ∀ move ∈ moves, ¬Touches move) (used_eq : moves.flatMap Move.released = used) :
    HistoryInv (history.called manager used) := by
  constructor
  · rw [← used_eq]
    exact moves_recency inv.recency untouched performed.policy
  · show manager.numAllocatedBlocks ≤ manager.numBlocks
    rw [performed.numBlocks]
    exact performed.bounded inv.bounded

theorem released_reserves (keys : List OffloadKey) :
    (keys.map Move.reserve).flatMap Move.released = [] := by
  simp [List.flatMap_map, Move.released]

theorem released_releases (keys : List OffloadKey) :
    (keys.map Move.release).flatMap Move.released = keys := by
  simp [List.flatMap_map, Move.released]

theorem quiet_releases {moves : List Move}
    (kinds : ∀ move ∈ moves, ∃ key, move = .pin key ∨ move = .recount key ∨ move = .discard key) :
    moves.flatMap Move.released = [] := by
  rw [List.flatMap_eq_nil_iff]
  intro move member
  obtain ⟨key, rfl | rfl | rfl⟩ := kinds move member <;> rfl

theorem apply_keeps_history (inv : HistoryInv history) {event : CpuEvent}
    (applied : history.apply event = .ok after) : HistoryInv after := by
  have tracked : TrackedPolicy.Tracked history.manager.policy := inv.recency.evictable
  cases event with
  | lookup key =>
      obtain ⟨⟨result, manager⟩, looked, done⟩ := bind_eq_ok.mp applied
      cases done
      exact performed_keeps_history inv (lookup_performed looked) (by simp) rfl
  | touch keys =>
      cases applied
      constructor
      · exact touch_keys_recency _ keys.reverse inv.recency (idle_iff inv.recency.evictable)
      · exact inv.bounded
  | prepareStore keys bypassThreshold =>
      obtain ⟨⟨output, manager⟩, prepared, done⟩ := bind_eq_ok.mp applied
      cases done
      cases prepare_store_performed tracked prepared with
      | refused performed => exact performed_keeps_history inv performed (by simp) rfl
      | roomy stores evicts fits performed =>
          apply performed_keeps_history inv performed (by simp [Touches])
          exact released_reserves _
      | evicting stores evicts short performed =>
          apply performed_keeps_history inv performed (by simp [Touches])
          rw [List.flatMap_cons, released_reserves]
          rfl
  | completeStore keys success =>
      obtain ⟨manager, completed, done⟩ := bind_eq_ok.mp applied
      cases done
      rcases complete_store_performed completed with
        ⟨rfl, performed⟩ | ⟨rfl, moves, performed, kinds⟩
      · apply performed_keeps_history inv performed (by simp [Touches])
        exact released_releases _
      · apply performed_keeps_history inv performed
        · intro move member
          obtain ⟨key, rfl⟩ := kinds move member
          exact id
        · apply quiet_releases
          intro move member
          obtain ⟨key, rfl⟩ := kinds move member
          exact ⟨key, .inr (.inr rfl)⟩
  | prepareLoad keys =>
      obtain ⟨⟨blockIds, manager⟩, loaded, done⟩ := bind_eq_ok.mp applied
      cases done
      obtain ⟨moves, performed, kinds⟩ := prepare_load_performed keys loaded
      apply performed_keeps_history inv performed
      · intro move member
        obtain ⟨key, rfl | rfl⟩ := kinds move member <;> exact id
      · apply quiet_releases
        intro move member
        obtain ⟨key, rfl | rfl⟩ := kinds move member
        · exact ⟨key, .inl rfl⟩
        · exact ⟨key, .inr (.inl rfl)⟩
  | completeLoad keys =>
      obtain ⟨manager, completed, done⟩ := bind_eq_ok.mp applied
      cases done
      obtain ⟨moves, performed, kinds, released⟩ := complete_load_performed keys completed
      apply performed_keeps_history inv performed _ released
      intro move member
      obtain ⟨key, rfl | rfl⟩ := kinds move member <;> exact id
  | resetCache =>
      cases applied
      constructor
      · exact ⟨LawfulCachePolicy.inv_clear (P := LRUCachePolicy) _, .nil, inv.recency.past⟩
      · exact Nat.zero_le _
  | takeEvents =>
      cases applied
      have same := take_events_same history.manager
      constructor
      · show Recency history.manager.takeEvents.2.policy history.uses
        rw [same.policy]
        exact inv.recency
      · show history.manager.takeEvents.2.numAllocatedBlocks ≤
          history.manager.takeEvents.2.numBlocks
        rw [same.allocated, same.numBlocks]
        exact inv.bounded

theorem start_history (params : CpuManagerParams) (cacheCapacity : Nat) :
    HistoryInv (.start params (LRUCachePolicy.new cacheCapacity)) := by
  constructor
  · exact ⟨by simp [EvictableIffIdle, CpuHistory.start, CPUOffloadingManager.new,
      LRUCachePolicy.new], .nil, fun _ => le_rfl⟩
  · exact Nat.zero_le _

theorem reached_history {params : CpuManagerParams} {cacheCapacity : Nat}
    (reached : CpuHistory.Reached params (LRUCachePolicy.new cacheCapacity) history) :
    HistoryInv history :=
  reaches_invariant (fun _ _ _ inv _ applied => apply_keeps_history inv applied)
    (start_history params cacheCapacity) reached

end Runs

section Victims

/-- The scan takes the first candidates of the evictable list. -/
theorem candidates_keys {blocks : OrderedMap OffloadKey BlockStatus} {guarded : List OffloadKey}
    (scan : List OffloadKey) {count : Nat} {found : Victims}
    (scanned : LRUCachePolicy.candidates blocks guarded count scan = .ok found) :
    found.map Prod.fst = (scan.filter fun key => key ∉ guarded).take count := by
  induction scan generalizing count found with
  | nil => cases count <;> · cases scanned; simp
  | cons key rest ih =>
      cases count with
      | zero =>
          cases scanned
          simp
      | succ count =>
          unfold LRUCachePolicy.candidates at scanned
          split at scanned
          · rename_i guard
            rw [ih scanned, List.filter_cons_of_neg (by simpa using guard)]
          · rename_i free
            obtain ⟨block, _, scanned⟩ := bind_eq_ok.mp scanned
            obtain ⟨_, _, scanned⟩ := bind_eq_ok.mp scanned
            obtain ⟨later, scannedLater, done⟩ := bind_eq_ok.mp scanned
            cases done
            rw [List.map_cons, ih scannedLater, List.filter_cons_of_pos (by simpa using free),
              List.take_succ_cons]

theorem evict_first {policy after : LRUCachePolicy} {count : Nat} {guarded : List OffloadKey}
    {victims : Victims} (evicted : policy.evict count guarded = .ok (some (victims, after))) :
    victims.map Prod.fst =
      (policy.evictableBlocks.keys.filter fun key => key ∉ guarded).take count := by
  unfold LRUCachePolicy.evict at evicted
  split at evicted
  · rename_i none
    cases evicted
    simp [none]
  · obtain ⟨found, scanned, evicted⟩ := bind_eq_ok.mp evicted
    split at evicted
    · cases evicted
    · cases evicted
      exact candidates_keys _ scanned

/-- `evicted` are the `count` least recently used of the candidates, the oldest
first. -/
structure LeastRecent (log : UseLog) (candidate : OffloadKey → Prop) (count : Nat)
    (evicted : List OffloadKey) : Prop where
  length : evicted.length = count
  candidates : ∀ key ∈ evicted, candidate key
  sorted : Sorted log evicted
  oldest : ∀ key, candidate key → key ∉ evicted →
    ∀ victim ∈ evicted, log.lastUse victim < log.lastUse key

theorem first_least_recent {log : UseLog} {keys : List OffloadKey} (sorted : Sorted log keys)
    {count : Nat} (enough : (keys.take count).length = count) :
    LeastRecent log (fun key => key ∈ keys) count (keys.take count) := by
  constructor
  · exact enough
  · exact fun key member => List.mem_of_mem_take member
  · exact sorted_sublist sorted (List.take_sublist _ _)
  · intro key member spared victim taken
    have late : key ∈ keys.drop count := by
      rw [← List.take_append_drop count keys, List.mem_append] at member
      exact member.resolve_left spared
    have split := sorted
    rw [Sorted, ← List.take_append_drop count keys, List.pairwise_append] at split
    exact split.2.2 victim taken key late

end Victims

/-- The candidates of a store: idle and not in its gate-filtered input. -/
def Candidate (manager : CPUOffloadingManager LRUCachePolicy) (passing : List OffloadKey)
    (key : OffloadKey) : Prop :=
  CpuHistory.idle manager key = true ∧ key ∉ passing

/-- What a store evicts, as far as last use decides it. A refused store evicts nothing. -/
def EvictsLeastRecent (history : CpuHistory LRUCachePolicy) (passing missing : List OffloadKey)
    (output : Option PrepareStoreOutput) (after : CPUOffloadingManager LRUCachePolicy) : Prop :=
  match output with
  | none => after.get = history.manager.get
  | some output =>
      LeastRecent history.uses (Candidate history.manager passing)
          (shortage history.manager missing.length) output.evictedKeys ∧
        ∀ key, history.manager.get key ≠ none →
          (after.get key = none ↔ key ∈ output.evictedKeys)

theorem least_recent_none {log : UseLog} {candidate : OffloadKey → Prop} :
    LeastRecent log candidate 0 [] := by
  constructor <;> simp [Sorted]

theorem evict_least_recent {history : CpuHistory LRUCachePolicy} (inv : HistoryInv history)
    {after : LRUCachePolicy} {count : Nat} {guarded : List OffloadKey} {victims : Victims}
    (evicted : history.manager.policy.evict count guarded = .ok (some (victims, after))) :
    LeastRecent history.uses (Candidate history.manager guarded) count
      (victims.map Prod.fst) := by
  have outcome := evicted_outcome
    (show TrackedPolicy.Tracked history.manager.policy from inv.recency.evictable) evicted
  have first := evict_first evicted
  have sorted : Sorted history.uses
      (history.manager.policy.evictableBlocks.keys.filter fun key => key ∉ guarded) :=
    sorted_sublist inv.recency.sorted List.filter_sublist
  have least := @first_least_recent _ _ sorted count
    (by rw [← first, List.length_map, outcome.count_eq])
  have candidate_eq : Candidate history.manager guarded = fun key =>
      key ∈ history.manager.policy.evictableBlocks.keys.filter fun key => key ∉ guarded := by
    funext key
    simp [Candidate, idle_iff inv.recency.evictable]
  rw [first, candidate_eq]
  exact least

/-- In every history, with any keys in its calls, a store evicts the least recently used
candidates, as many as the pool is short of blocks, in the order of their last use. -/
theorem store_evicts_least_recent {params : CpuManagerParams} {cacheCapacity : Nat}
    {history : CpuHistory LRUCachePolicy}
    (reached : CpuHistory.Reached params (LRUCachePolicy.new cacheCapacity) history)
    {keys : List OffloadKey} {bypassThreshold : Bool} {output : Option PrepareStoreOutput}
    {after : CPUOffloadingManager LRUCachePolicy}
    (prepared : history.manager.prepareStore keys bypassThreshold = .ok (output, after)) :
    EvictsLeastRecent history (passingKeys history.manager keys bypassThreshold)
      (missingKeys history.manager keys bypassThreshold) output after := by
  have inv := reached_history reached
  have tracked : TrackedPolicy.Tracked history.manager.policy := inv.recency.evictable
  have absent : ∀ key ∈ missingKeys history.manager keys bypassThreshold,
      history.manager.get key = none := by
    intro key member
    exact Option.isNone_iff_eq_none.mp (List.mem_filter.mp member).2
  cases prepare_store_performed tracked prepared with
  | refused performed =>
      funext key
      have same : after.policy = history.manager.policy := performed.policy
      rw [CPUOffloadingManager.get, same]
      rfl
  | roomy stores evicts fits performed =>
      constructor
      · have enough : shortage history.manager
            (missingKeys history.manager keys bypassThreshold).length = 0 := by
          rcases fits with none | enough
          · have bounded := inv.bounded
            rw [none]
            simp only [shortage, CPUOffloadingManager.getNumFreeBlocks, List.length_nil]
            omega
          · exact enough
        rw [enough, evicts]
        exact least_recent_none
      · intro key stored
        have kept := reserve_moves_absent tracked performed.policy key
        rw [evicts]
        exact iff_of_false (fun gone => stored (kept.mp gone).1) List.not_mem_nil
  | @evicting _ output victims stores evicts short performed =>
      obtain ⟨middle, first, later⟩ := performed.policy
      have kept := reserve_moves_absent (TrackedPolicy.tracked_moved tracked first) later
      cases first with
      | evict evicted =>
          have outcome := evicted_outcome tracked evicted
          rw [EvictsLeastRecent, evicts]
          refine ⟨evict_least_recent inv evicted, fun key stored => ?_⟩
          have reserved : key ∉ missingKeys history.manager keys bypassThreshold :=
            fun member => stored (absent key member)
          have gone : CachePolicy.get middle key = none ↔ key ∈ victims.map Prod.fst := by
            rw [outcome.get_after]
            split
            · rename_i victim
              exact iff_of_true rfl victim
            · rename_i spared
              exact iff_of_false stored spared
          rw [← gone]
          exact (kept key).trans (and_iff_left reserved)

/-- The keys that storing a key evicts. -/
def evictedBy (key : OffloadKey) (history : CpuHistory LRUCachePolicy) :
    Option (List OffloadKey) :=
  match history.manager.prepareStore [key] false with
  | .ok (some output, _) => some output.evictedKeys
  | _ => none

/-- Of two idle keys the one that was not touched is evicted. -/
theorem untouched_key_evicted :
    ∃ (history : CpuHistory LRUCachePolicy) (output : PrepareStoreOutput)
      (after : CPUOffloadingManager LRUCachePolicy),
      CpuHistory.Reached { numBlocks := 2 } (LRUCachePolicy.new 2) history ∧
        output.evictedKeys = [⟨[8], 0⟩] ∧
        EvictsLeastRecent history (passingKeys history.manager [⟨[9], 0⟩] false)
          (missingKeys history.manager [⟨[9], 0⟩] false) (some output) after := by
  have replayed : (EventRuns.replay CpuHistory.apply (fun _ _ => True)
      (CpuHistory.start { numBlocks := 2 } (LRUCachePolicy.new 2))
      [.prepareStore [⟨[7], 0⟩, ⟨[8], 0⟩] false, .completeStore [⟨[7], 0⟩, ⟨[8], 0⟩] true,
        .touch [⟨[7], 0⟩]]).map (evictedBy ⟨[9], 0⟩) = some (some [⟨[8], 0⟩]) := by
    decide +kernel
  obtain ⟨history, reached, seen⟩ := EventRuns.exists_of_replay replayed
  unfold evictedBy at seen
  split at seen
  · rename_i output after prepared
    exact ⟨history, output, after, reached, Option.some.inj seen,
      store_evicts_least_recent reached prepared⟩
  · cases seen

end KvOffload.LruRecency
